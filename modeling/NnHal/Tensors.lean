import Mathlib.Algebra.BigOperators.Group.Finset.Basic
import Mathlib.Data.Int.Basic
import Mathlib.Data.List.GetD
import Mathlib.Tactic.Ring

/-!
# Dense tensors

A tensor is a shape and a function from index lists to entries.  Reading
outside the shape gives zero, negative coordinates included, so two tensors
are equal when their shapes and the entries inside agree, and zero padding
needs no case of its own.

The operations are the ones that only move entries: a permutation of the axes,
a row-major reshape, an entrywise map and a map of two tensors with
right-aligned broadcasting.
-/

namespace Tensors

/-- Every coordinate of the index lies on its axis. -/
def Inside : List Nat → List Int → Prop
  | [], [] => True
  | d :: ds, i :: is => (0 ≤ i ∧ i < d) ∧ Inside ds is
  | [], _ :: _ | _ :: _, [] => False

instance decidableInside : (shape : List Nat) → (index : List Int) →
    Decidable (Inside shape index)
  | [], [] => isTrue trivial
  | d :: ds, i :: is =>
      have := decidableInside ds is
      inferInstanceAs (Decidable ((0 ≤ i ∧ i < d) ∧ Inside ds is))
  | [], _ :: _ | _ :: _, [] => isFalse not_false

@[simp] theorem inside_nil : Inside [] [] := trivial

@[simp] theorem inside_cons {d : Nat} {ds : List Nat} {i : Int} {is : List Int} :
    Inside (d :: ds) (i :: is) ↔ (0 ≤ i ∧ i < d) ∧ Inside ds is := Iff.rfl

theorem Inside.length_eq {shape : List Nat} {index : List Int} (h : Inside shape index) :
    index.length = shape.length := by
  induction shape generalizing index with
  | nil =>
      cases index with
      | nil => rfl
      | cons i is => exact h.elim
  | cons d ds ih =>
      cases index with
      | nil => exact h.elim
      | cons i is => simpa using ih h.2

/-- Being inside, axis by axis. -/
theorem inside_iff {shape : List Nat} {index : List Int} :
    Inside shape index ↔ index.length = shape.length ∧
      ∀ k < shape.length, 0 ≤ index.getD k 0 ∧ index.getD k 0 < (shape.getD k 0 : Nat) := by
  induction shape generalizing index with
  | nil => cases index <;> simp [Inside]
  | cons d ds ih =>
      cases index with
      | nil => simp [Inside]
      | cons i is =>
          rw [inside_cons, ih]
          constructor
          · intro hboth
            rcases hboth with ⟨hi, hlength, hrest⟩
            refine ⟨by simpa using hlength, ?_⟩
            intro k hk
            cases k with
            | zero => simpa using hi
            | succ k => simpa using hrest k (by simpa using hk)
          · intro hboth
            rcases hboth with ⟨hlength, hall⟩
            refine ⟨by simpa using hall 0 (by simp), by simpa using hlength, ?_⟩
            intro k hk
            simpa using hall (k + 1) (by simpa using hk)

/-- A tensor: a shape and the entries inside it. -/
structure Tensor (R : Type) [Zero R] where
  shape : List Nat
  get : List Int → R
  outside : ∀ index, ¬ Inside shape index → get index = 0

namespace Tensor

section Zero

variable {R : Type} [Zero R]

/-- The tensor of a shape with the entries of a function. -/
def ofFn (shape : List Nat) (f : List Int → R) : Tensor R where
  shape
  get index := if Inside shape index then f index else 0
  outside _ h := if_neg h

@[simp] theorem shape_ofFn (shape : List Nat) (f : List Int → R) :
    (ofFn shape f).shape = shape := rfl

theorem get_ofFn {shape : List Nat} {f : List Int → R} {index : List Int}
    (h : Inside shape index) : (ofFn shape f).get index = f index := if_pos h

instance : Inhabited (Tensor R) := ⟨ofFn [] fun _ => 0⟩

/-- Tensors are equal when they agree inside their common shape. -/
theorem ext_inside {x y : Tensor R} (hshape : x.shape = y.shape)
    (hget : ∀ index, Inside x.shape index → x.get index = y.get index) : x = y := by
  rcases x with ⟨shape, get, houtside⟩
  rcases y with ⟨shape', get', houtside'⟩
  cases hshape
  have h : get = get' := by
    funext index
    by_cases hin : Inside shape index
    · exact hget index hin
    · rw [houtside index hin, houtside' index hin]
  cases h
  rfl

end Zero

end Tensor

/-- A shape that has an index inside has no axis of size zero. -/
theorem Inside.zero_notMem {shape : List Nat} {index : List Int} (h : Inside shape index) :
    0 ∉ shape := by
  induction shape generalizing index with
  | nil => exact List.not_mem_nil
  | cons d ds ih =>
      cases index with
      | nil => exact h.elim
      | cons i is =>
          rcases h with ⟨hi, hrest⟩
          rw [List.mem_cons, not_or]
          exact ⟨by omega, ih hrest⟩

/-- Its first index is inside. -/
theorem inside_zeros {shape : List Nat} (h : 0 ∉ shape) :
    Inside shape (shape.map fun _ => 0) := by
  induction shape with
  | nil => trivial
  | cons d ds ih =>
      rw [List.mem_cons, not_or] at h
      have hd : (0 : Int) < d := by omega
      exact ⟨⟨le_refl 0, hd⟩, ih h.2⟩

theorem Inside.drop {shape : List Nat} {index : List Int} (h : Inside shape index) (k : Nat) :
    Inside (shape.drop k) (index.drop k) := by
  induction k generalizing shape index with
  | zero => exact h
  | succ k ih =>
      cases shape with
      | nil =>
          cases index with
          | nil => trivial
          | cons i is => exact h.elim
      | cons d ds =>
          cases index with
          | nil => exact h.elim
          | cons i is => exact ih h.2

/-! ### Orders of axes -/

/-- The entries of a list at the listed positions. -/
def gather {α : Type} (default : α) (order : List Nat) (l : List α) : List α :=
  order.map fun a => l.getD a default

@[simp] theorem length_gather {α : Type} (default : α) (order : List Nat) (l : List α) :
    (gather default order l).length = order.length := by simp [gather]

theorem getD_gather {α : Type} {default : α} {order : List Nat} {l : List α} {k : Nat}
    (hk : k < order.length) :
    (gather default order l).getD k default = l.getD (order.getD k 0) default := by
  simp [gather, List.getD_eq_getElem?_getD, hk]

theorem gather_gather {α : Type} {default : α} {p q : List Nat} {l : List α}
    (hq : ∀ a ∈ q, a < p.length) :
    gather default q (gather default p l) = gather default (gather 0 q p) l := by
  unfold gather
  rw [List.map_map]
  apply List.map_congr_left
  intro a ha
  have := hq a ha
  simp [List.getD_eq_getElem?_getD, this]

theorem gather_range {α : Type} {default : α} {l : List α} :
    gather default (List.range l.length) l = l := by
  apply List.ext_getElem
  · simp
  · intro k hk hk'
    simp [gather, List.getD_eq_getElem?_getD, hk']

/-- The position of every axis in an order. -/
def inverse (order : List Nat) : List Nat :=
  (List.range order.length).map order.idxOf

@[simp] theorem length_inverse (order : List Nat) :
    (inverse order).length = order.length := by simp [inverse]

/-- A list of all axes of a rank, in some order. -/
abbrev IsOrder (order : List Nat) (rank : Nat) : Prop := order.Perm (List.range rank)

section Orders

variable {order : List Nat} {rank : Nat}

theorem IsOrder.length_eq (h : IsOrder order rank) : order.length = rank := by
  simpa using List.Perm.length_eq h

theorem IsOrder.mem_iff (h : IsOrder order rank) {a : Nat} : a ∈ order ↔ a < rank := by
  simpa using List.Perm.mem_iff h

theorem IsOrder.nodup (h : IsOrder order rank) : order.Nodup :=
  (List.Perm.nodup_iff h).mpr List.nodup_range

theorem IsOrder.getD_inverse (h : IsOrder order rank) {a : Nat} (ha : a < rank) :
    (inverse order).getD a 0 = order.idxOf a := by
  have hlength := h.length_eq
  simp [inverse, List.getD_eq_getElem?_getD, hlength, ha]

/-- Every axis stands at its own position. -/
theorem IsOrder.gather_inverse_order (h : IsOrder order rank) :
    gather 0 (inverse order) order = List.range rank := by
  unfold gather inverse
  rw [List.map_map, h.length_eq]
  conv_rhs => rw [← List.map_id (List.range rank)]
  apply List.map_congr_left
  intro a ha
  have hmem : a ∈ order := h.mem_iff.mpr (List.mem_range.mp ha)
  have hidx := List.idxOf_lt_length_of_mem hmem
  rw [Function.comp_apply, List.getD_eq_getElem _ _ hidx]
  exact List.getElem_idxOf hidx

/-- Moving the coordinates back keeps them on their axes. -/
theorem IsOrder.inside_gather (h : IsOrder order rank) {shape : List Nat} {index : List Int}
    (hshape : shape.length = rank) (hindex : index.length = rank) :
    Inside (gather 0 order shape) index ↔ Inside shape (gather 0 (inverse order) index) := by
  rw [inside_iff, inside_iff]
  simp only [length_gather, length_inverse, h.length_eq, hshape, hindex, true_and]
  constructor
  · intro hall a ha
    have hidx := List.idxOf_lt_length_of_mem (h.mem_iff.mpr ha)
    have hk := hall (order.idxOf a) (by rwa [h.length_eq] at hidx)
    rw [getD_gather hidx, List.getD_eq_getElem _ _ hidx, List.getElem_idxOf hidx] at hk
    rwa [getD_gather (by simpa [h.length_eq] using ha), h.getD_inverse ha]
  · intro hall k hk
    have hlt : k < order.length := by rwa [h.length_eq]
    have hrank : order[k] < rank := h.mem_iff.mp (List.getElem_mem hlt)
    have ha := hall order[k] hrank
    rw [getD_gather (by simpa [h.length_eq] using hrank), h.getD_inverse hrank,
      h.nodup.idxOf_getElem k hlt] at ha
    rwa [getD_gather hlt, List.getD_eq_getElem _ _ hlt]

end Orders

/-! ### Row-major positions -/

/-- The position of an index in row-major order. -/
def flat : List Nat → List Int → Int
  | _ :: ds, i :: is => i * (ds.prod : Nat) + flat ds is
  | _, _ => 0

/-- The index at a position in row-major order. -/
def unflat : List Nat → Int → List Int
  | [], _ => []
  | _ :: ds, n => n / (ds.prod : Nat) :: unflat ds (n % (ds.prod : Nat))

theorem flat_bounds {shape : List Nat} {index : List Int} (h : Inside shape index) :
    0 ≤ flat shape index ∧ flat shape index < (shape.prod : Nat) := by
  induction shape generalizing index with
  | nil =>
      cases index with
      | nil => simp [flat]
      | cons i is => exact h.elim
  | cons d ds ih =>
      cases index with
      | nil => exact h.elim
      | cons i is =>
          rcases h with ⟨⟨hi, hd⟩, hrest⟩
          obtain ⟨hlow, hhigh⟩ := ih hrest
          have hprod : 0 ≤ (ds.prod : Int) := Int.natCast_nonneg _
          have hstart : 0 ≤ i * (ds.prod : Nat) := Int.mul_nonneg hi hprod
          have hend : (i + 1) * (ds.prod : Nat) ≤ (d : Int) * (ds.prod : Nat) :=
            Int.mul_le_mul_of_nonneg_right (by omega) hprod
          simp only [flat, List.prod_cons, Nat.cast_mul]
          rw [Int.add_mul, Int.one_mul] at hend
          omega

/-- An index inside the shape is found again at its position. -/
theorem unflat_flat {shape : List Nat} {index : List Int} (h : Inside shape index) :
    unflat shape (flat shape index) = index := by
  induction shape generalizing index with
  | nil =>
      cases index with
      | nil => rfl
      | cons i is => exact h.elim
  | cons d ds ih =>
      cases index with
      | nil => exact h.elim
      | cons i is =>
          obtain ⟨hlow, hhigh⟩ := flat_bounds h.2
          have hprod : (ds.prod : Int) ≠ 0 := by omega
          have hdiv : flat (d :: ds) (i :: is) / (ds.prod : Nat) = i := by
            rw [flat, Int.add_comm, Int.add_mul_ediv_right _ _ hprod,
              Int.ediv_eq_zero_of_lt hlow hhigh, Int.zero_add]
          have hmod : flat (d :: ds) (i :: is) % (ds.prod : Nat) = flat ds is := by
            rw [flat, Int.add_comm, Int.add_mul_emod_self_right, Int.emod_eq_of_lt hlow hhigh]
          rw [unflat, hdiv, hmod, ih h.2]

/-! ### Operations -/

namespace Tensor

section Zero

variable {R : Type} [Zero R]

/-- The tensor of rank one that holds a list. -/
def ofList (l : List R) : Tensor R :=
  ofFn [l.length] fun index => l.getD (index.getD 0 0).toNat 0

/-- Along one axis, a function and a list agree position by position. -/
theorem ofFn_eq_ofList {n : Nat} {f : List Int → R} {l : List R} (hlength : l.length = n)
    (h : ∀ i : Nat, i < n → f [(i : Int)] = l.getD i 0) : ofFn [n] f = ofList l := by
  subst hlength
  refine ext_inside rfl fun index hin => ?_
  replace hin : Inside [l.length] index := hin
  obtain ⟨i, rfl⟩ : ∃ i, index = [i] := List.length_eq_one_iff.mp hin.length_eq
  obtain ⟨k, rfl⟩ := Int.eq_ofNat_of_zero_le hin.1.1
  have hk : k < l.length := Int.ofNat_lt.mp hin.1.2
  rw [ofList, get_ofFn hin, get_ofFn hin, h k hk]
  rfl

/-- The tensor with a one at an index and zeros elsewhere. -/
def single [One R] (shape : List Nat) (index : List Int) : Tensor R :=
  ofFn shape fun other => if other = index then 1 else 0

theorem get_single [One R] {shape : List Nat} {index other : List Int} (h : Inside shape index) :
    (single shape index : Tensor R).get other = if other = index then 1 else 0 := by
  by_cases hsame : other = index
  · subst hsame
    exact get_ofFn h
  · by_cases hin : Inside shape other
    · exact get_ofFn hin
    · rw [outside _ _ hin, if_neg hsame]

/-- The axes in a new order: axis `k` of the result is axis `order[k]`. -/
def transpose (order : List Nat) (x : Tensor R) : Tensor R :=
  ofFn (gather 0 order x.shape) fun index => x.get (gather 0 (inverse order) index)

@[simp] theorem shape_transpose (order : List Nat) (x : Tensor R) :
    (x.transpose order).shape = gather 0 order x.shape := rfl

theorem get_transpose {order : List Nat} {x : Tensor R} (h : IsOrder order x.shape.length)
    {index : List Int} (hindex : index.length = x.shape.length) :
    (x.transpose order).get index = x.get (gather 0 (inverse order) index) := by
  by_cases hin : Inside (gather 0 order x.shape) index
  · exact get_ofFn hin
  · rw [outside _ _ hin]
    rw [h.inside_gather rfl hindex] at hin
    exact (x.outside _ hin).symm

/-- Two orders that undo each other undo each other's transposition. -/
theorem transpose_transpose {p q : List Nat} {x : Tensor R} (hp : IsOrder p x.shape.length)
    (hq : IsOrder q x.shape.length) (hpq : inverse p = q) (hqp : inverse q = p) :
    (x.transpose p).transpose q = x := by
  have hlength : (x.transpose p).shape.length = x.shape.length := by simp [hp.length_eq]
  have hshape : gather 0 q (gather 0 p x.shape) = x.shape := by
    rw [gather_gather (by simpa [hp.length_eq] using fun a ha => hq.mem_iff.mp ha), ← hpq,
      hp.gather_inverse_order, gather_range]
  apply ext_inside hshape
  intro index hin
  have hindex : index.length = x.shape.length := by
    rw [hin.length_eq]
    simp [hq.length_eq]
  rw [get_transpose (by rwa [hlength]) (by rwa [hlength]), hqp,
    get_transpose hp (by simp [hp.length_eq]), hpq]
  rw [gather_gather (by simpa [hp.length_eq] using fun a ha => hq.mem_iff.mp ha), ← hpq,
    hp.gather_inverse_order, ← hindex, gather_range]

/-- The entries in row-major order under another shape. -/
def reshape (shape : List Nat) (x : Tensor R) : Tensor R :=
  ofFn shape fun index => x.get (unflat x.shape (flat shape index))

@[simp] theorem shape_reshape (shape : List Nat) (x : Tensor R) :
    (x.reshape shape).shape = shape := rfl

theorem get_reshape {shape : List Nat} {x : Tensor R} {index source : List Int}
    (hindex : Inside shape index) (hsource : Inside x.shape source)
    (hflat : flat shape index = flat x.shape source) :
    (x.reshape shape).get index = x.get source := by
  rw [reshape, get_ofFn hindex, hflat, unflat_flat hsource]

/-- A target shape in which a zero keeps the size the tensor has there. -/
def specialZero (shape target : List Nat) : List Nat :=
  target.mapIdx fun k d => if d = 0 then shape.getD k 0 else d

theorem specialZero_of_pos {shape target : List Nat} (h : ∀ d ∈ target, d ≠ 0) :
    specialZero shape target = target := by
  apply List.ext_getElem
  · simp [specialZero]
  · intro k hk hk'
    simp [specialZero, h _ (List.getElem_mem hk')]

/-- A function of every entry. -/
def map (f : R → R) (x : Tensor R) : Tensor R :=
  ofFn x.shape fun index => f (x.get index)

@[simp] theorem shape_map (f : R → R) (x : Tensor R) : (x.map f).shape = x.shape := rfl

theorem get_map {f : R → R} {x : Tensor R} {index : List Int} (h : Inside x.shape index) :
    (x.map f).get index = f (x.get index) := get_ofFn h

theorem map_id (x : Tensor R) : (x.map fun v => v) = x := by
  have hshape : (x.map fun v => v).shape = x.shape := rfl
  exact ext_inside hshape fun index hin => get_map hin

theorem map_map (f g : R → R) (x : Tensor R) : (x.map f).map g = x.map fun v => g (f v) := by
  have hshape : ((x.map f).map g).shape = (x.map fun v => g (f v)).shape := rfl
  apply ext_inside hshape
  intro index hin
  have hin' : Inside x.shape index := hin
  have hmap : Inside (x.map f).shape index := hin
  rw [get_map hmap, get_map hin', get_map hin']

theorem map_congr {f g : R → R} {x : Tensor R}
    (h : ∀ index, Inside x.shape index → f (x.get index) = g (x.get index)) :
    x.map f = x.map g := by
  have hshape : (x.map f).shape = (x.map g).shape := rfl
  apply ext_inside hshape
  intro index hin
  have hin' : Inside x.shape index := hin
  rw [get_map hin', get_map hin', h index hin']

/-- Entries move with their axes, whatever is done to each of them. -/
theorem transpose_map {order : List Nat} {f : R → R} {x : Tensor R}
    (h : IsOrder order x.shape.length) :
    (x.map f).transpose order = (x.transpose order).map f := by
  have hshape : ((x.map f).transpose order).shape = ((x.transpose order).map f).shape := rfl
  apply ext_inside hshape
  intro index hin
  have hindex : index.length = x.shape.length := by
    rw [hin.length_eq]
    simp [h.length_eq]
  have hin' : Inside x.shape (gather 0 (inverse order) index) :=
    (h.inside_gather rfl hindex).mp hin
  have hout : Inside (x.transpose order).shape index := hin
  rw [get_transpose (x := x.map f) h hindex, get_map hin', get_map hout, get_transpose h hindex]

end Zero

/-! ### Broadcasting -/

/-- The shape two shapes broadcast to, aligned at their last axes. -/
def broadcastShape (s t : List Nat) : List Nat :=
  let rank := max s.length t.length
  List.zipWith (fun a b => if a = 1 then b else a)
    (List.replicate (rank - s.length) 1 ++ s) (List.replicate (rank - t.length) 1 ++ t)

/-- The index a broadcast tensor is read at: leading axes it lacks are left
out, and an axis of size one is read at zero. -/
def alignIndex (shape : List Nat) (index : List Int) : List Int :=
  List.zipWith (fun d i => if d = 1 then 0 else i) shape
    (index.drop (index.length - shape.length))

section Zero

variable {R : Type} [Zero R]

/-- A function of the entries of two tensors, the smaller one repeated. -/
def broadcast (f : R → R → R) (x y : Tensor R) : Tensor R :=
  ofFn (broadcastShape x.shape y.shape) fun index =>
    f (x.get (alignIndex x.shape index)) (y.get (alignIndex y.shape index))

@[simp] theorem shape_broadcast (f : R → R → R) (x y : Tensor R) :
    (broadcast f x y).shape = broadcastShape x.shape y.shape := rfl

theorem get_broadcast {f : R → R → R} {x y : Tensor R} {index : List Int}
    (h : Inside (broadcastShape x.shape y.shape) index) :
    (broadcast f x y).get index =
      f (x.get (alignIndex x.shape index)) (y.get (alignIndex y.shape index)) := get_ofFn h

theorem alignIndex_self {shape : List Nat} {index : List Int} (h : Inside shape index) :
    alignIndex shape index = index := by
  unfold alignIndex
  rw [h.length_eq, Nat.sub_self, List.drop_zero]
  induction shape generalizing index with
  | nil =>
      cases index with
      | nil => rfl
      | cons i is => exact h.elim
  | cons d ds ih =>
      cases index with
      | nil => exact h.elim
      | cons i is =>
          rcases h with ⟨hi, hrest⟩
          rw [List.zipWith_cons_cons, ih hrest]
          by_cases hd : d = 1
          · have : i = 0 := by omega
            simp [hd, this]
          · simp [hd]

theorem broadcastShape_self (shape : List Nat) : broadcastShape shape shape = shape := by
  unfold broadcastShape
  simp only [max_self, Nat.sub_self, List.replicate_zero, List.nil_append]
  rw [List.zipWith_self]
  simp

/-- A missing axis, or one of size one, takes nothing from the other shape. -/
theorem zipWith_ones (shape : List Nat) :
    List.zipWith (fun a b => if a = 1 then b else a) shape (List.replicate shape.length 1) =
      shape := by
  induction shape with
  | nil => rfl
  | cons d ds ih =>
      rw [List.length_cons, List.replicate_succ, List.zipWith_cons_cons, ih]
      by_cases hd : d = 1 <;> simp [hd]

theorem broadcastShape_nil (shape : List Nat) : broadcastShape shape [] = shape := by
  unfold broadcastShape
  simp only [List.length_nil, Nat.max_zero, Nat.sub_self, List.replicate_zero, List.nil_append,
    Nat.sub_zero, List.append_nil]
  exact zipWith_ones shape

/-- A vector along one axis, with the axes behind it of size one. -/
def channelShape (size behind : Nat) : List Nat := size :: List.replicate behind 1

/-- A vector of the size of an axis, aligned there, leaves the shape as it is. -/
theorem broadcastShape_channel (before after : List Nat) (size : Nat) :
    broadcastShape (before ++ size :: after) (channelShape size after.length) =
      before ++ size :: after := by
  have hrank : (before ++ size :: after).length = before.length + (after.length + 1) := by simp
  have hvector : (channelShape size after.length).length = after.length + 1 := by
    simp [channelShape]
  have hpad : before.length + (after.length + 1) - (after.length + 1) = before.length := by omega
  unfold broadcastShape
  simp only [hrank, hvector, Nat.max_eq_left (Nat.le_add_left _ _), Nat.sub_self, hpad,
    List.replicate_zero, List.nil_append]
  rw [List.zipWith_append List.length_replicate.symm, zipWith_ones, channelShape,
    List.zipWith_cons_cons, zipWith_ones, ite_self]

/-- What the left tensor is read at is inside it. -/
theorem inside_alignIndex {s t : List Nat} {index : List Int}
    (h : Inside (broadcastShape s t) index) : Inside s (alignIndex s index) := by
  have hzip : ∀ (s' t' : List Nat) (is : List Int), s'.length = t'.length →
      Inside (List.zipWith (fun a b => if a = 1 then b else a) s' t') is →
      Inside s' (List.zipWith (fun d i => if d = 1 then 0 else i) s' is) := by
    intro s'
    induction s' with
    | nil => exact fun _ _ _ _ => trivial
    | cons d ds ih =>
        intro t' is hlength hin
        cases t' with
        | nil => cases hlength
        | cons e es =>
            cases is with
            | nil => exact hin.elim
            | cons i is =>
                rcases hin with ⟨hi, hrest⟩
                refine ⟨?_, ih es is (Nat.succ.inj hlength) hrest⟩
                by_cases hd : d = 1
                · simp [hd]
                · simpa [hd] using hi
  have hlength := h.length_eq
  have hdrop := h.drop (index.length - s.length)
  unfold broadcastShape at hdrop hlength
  unfold alignIndex
  simp only [List.length_zipWith, List.length_append, List.length_replicate] at hlength
  have hpad : index.length - s.length = max s.length t.length - s.length := by omega
  rw [hpad] at hdrop ⊢
  rw [List.drop_zipWith, List.drop_left' (List.length_replicate)] at hdrop
  refine hzip s _ _ ?_ hdrop
  simp only [List.length_drop, List.length_append, List.length_replicate]
  omega

/-- An axis of size zero stays. -/
theorem zero_mem_broadcastShape {s t : List Nat} (h : 0 ∈ s) : 0 ∈ broadcastShape s t := by
  have hzip : ∀ l l' : List Nat, l.length = l'.length → 0 ∈ l →
      0 ∈ List.zipWith (fun a b => if a = 1 then b else a) l l' := by
    intro l
    induction l with
    | nil =>
        intro l' _ hmem
        cases hmem
    | cons a l ih =>
        intro l' hlength hmem
        cases l' with
        | nil => cases hlength
        | cons b l' =>
            rw [List.zipWith_cons_cons]
            rcases List.mem_cons.mp hmem with rfl | hmem
            · simp
            · exact List.mem_cons_of_mem _ (ih l' (Nat.succ.inj hlength) hmem)
  apply hzip
  · simp only [List.length_append, List.length_replicate]
    omega
  · exact List.mem_append_right _ h

/-- A scalar on the right is the same entry everywhere. -/
theorem broadcast_scalar {f : R → R → R} {x y : Tensor R} (hy : y.shape = []) :
    broadcast f x y = x.map fun a => f a (y.get []) := by
  have hshape : broadcastShape x.shape y.shape = x.shape := by rw [hy, broadcastShape_nil]
  apply ext_inside hshape
  intro index hin
  have hin' : Inside x.shape index := by
    rw [← hshape]
    exact hin
  rw [get_broadcast hin, get_map hin', alignIndex_self hin', hy]
  rfl

/-- Axes of size one are read at zero. -/
theorem zipWith_ones_index (index : List Int) :
    List.zipWith (fun (d : Nat) i => if d = 1 then 0 else i) (List.replicate index.length 1)
      index = List.replicate index.length 0 := by
  induction index with
  | nil => rfl
  | cons i is ih =>
      rw [List.length_cons, List.replicate_succ, List.zipWith_cons_cons, ih, if_pos rfl,
        List.replicate_succ]

/-- The vector is read at the coordinate of its axis. -/
theorem alignIndex_channel {before after : List Nat} {size : Nat} {index : List Int}
    (h : Inside (before ++ size :: after) index) :
    alignIndex (channelShape size after.length) index =
      index.getD before.length 0 :: List.replicate after.length 0 := by
  have hlength := h.length_eq
  rw [List.length_append, List.length_cons] at hlength
  have hrest := h.drop before.length
  rw [List.drop_left] at hrest
  have hpad : index.length - (channelShape size after.length).length = before.length := by
    simp only [channelShape, List.length_cons, List.length_replicate]
    omega
  have hget : index.getD before.length 0 = (index.drop before.length).getD 0 0 := by
    simp [List.getD_eq_getElem?_getD]
  unfold alignIndex
  rw [hpad, hget]
  cases hdrop : index.drop before.length with
  | nil =>
      rw [hdrop] at hrest
      exact hrest.elim
  | cons i is =>
      rw [hdrop] at hrest
      rcases hrest with ⟨hi, hbehind⟩
      have hfirst : (if size = 1 then 0 else i) = i := by
        split <;> omega
      rw [channelShape, List.zipWith_cons_cons, ← hbehind.length_eq, zipWith_ones_index, hfirst]
      rfl

theorem flat_zeros (shape : List Nat) (k : Nat) : flat shape (List.replicate k 0) = 0 := by
  induction shape generalizing k with
  | nil => rfl
  | cons d ds ih =>
      cases k with
      | zero => rfl
      | succ k => rw [List.replicate_succ, flat, ih, Int.zero_mul, Int.add_zero]

/-- The entry of the vector there is the one at that coordinate. -/
theorem flat_channel (size behind : Nat) (i : Int) :
    flat (channelShape size behind) (i :: List.replicate behind 0) = i := by
  rw [channelShape, flat, flat_zeros, List.prod_replicate, Nat.one_pow, Nat.cast_one, Int.mul_one,
    Int.add_zero]

section Channel

variable {f : R → R → R} {x y : Tensor R} {before after : List Nat} {size : Nat}

theorem shape_broadcast_channel (hx : x.shape = before ++ size :: after)
    (hy : y.shape = channelShape size after.length) : (broadcast f x y).shape = x.shape := by
  rw [shape_broadcast, hx, hy, broadcastShape_channel]

/-- Every entry is combined with that of its channel. -/
theorem get_broadcast_channel (hx : x.shape = before ++ size :: after)
    (hy : y.shape = channelShape size after.length) {index : List Int} (h : Inside x.shape index) :
    (broadcast f x y).get index =
      f (x.get index) (y.get (index.getD before.length 0 :: List.replicate after.length 0)) := by
  have hshape := shape_broadcast_channel (f := f) hx hy
  have hin : Inside (broadcastShape x.shape y.shape) index := by
    rw [← shape_broadcast f, hshape]
    exact h
  have halign := h
  rw [hx] at halign
  rw [get_broadcast hin, alignIndex_self h, hy, alignIndex_channel halign]

end Channel

/-- Two tensors of one shape are combined entry by entry. -/
theorem broadcast_same {f : R → R → R} {x : Tensor R} :
    broadcast f x x = x.map fun a => f a a := by
  apply ext_inside (broadcastShape_self x.shape)
  intro index hin
  have hin' : Inside x.shape index := by
    rw [← broadcastShape_self x.shape]
    exact hin
  rw [get_broadcast hin, get_map hin', alignIndex_self hin']

end Zero

end Tensor

end Tensors
