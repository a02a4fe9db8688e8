import Mathlib.Data.Nat.Size
import NnHal.Casting
import NnHal.ConvolutionMeanings
import NnHal.Reshaping

/-!
# The bits of a mask

`StridedSlice::getMaskBits` halves a mask until it is zero, and writes a bit in each round.
The rounds are counted by the mask and not by the vector, and C++ halves towards zero, so
the bits are those of the magnitude.
-/

namespace NnHal

open Command

/-! ## Halving -/

theorem natAbs_tdiv_two (m : Int) : (m.tdiv 2).natAbs = m.natAbs / 2 := by
  rw [Int.natAbs_tdiv]
  rfl

theorem tmod_two_eq_zero_iff (m : Int) : m.tmod 2 = 0 ↔ m.natAbs % 2 = 0 := by
  rw [← Int.natAbs_eq_zero, Int.natAbs_tmod]
  rfl

/-- Halving drops one bit. -/
theorem size_eq_size_half {n : Nat} (hn : n ≠ 0) : n.size = (n / 2).size + 1 := by
  conv_lhs => rw [← Nat.bit_bodd_div2 n]
  rw [Nat.size_bit (by rwa [Nat.bit_bodd_div2]), Nat.div2_val]

/-- Two numbers agree in their first bits when they leave one remainder. -/
theorem testBit_agree_iff (r x y : Nat) :
    (∀ i < r, x.testBit i = y.testBit i) ↔ x % 2 ^ r = y % 2 ^ r := by
  constructor
  · intro hbits
    apply Nat.eq_of_testBit_eq
    intro i
    rw [Nat.testBit_mod_two_pow, Nat.testBit_mod_two_pow]
    by_cases hi : i < r
    · rw [hbits i hi]
    · simp [hi]
  · intro hmod i hi
    have hbit := congrArg (fun n => n.testBit i) hmod
    simpa [Nat.testBit_mod_two_pow, hi] using hbit

/-- A number and its complement to `2 ^ w` agree in enough bits for the number when it is
the highest of them, or half of `2 ^ w`. -/
theorem complement_agrees_iff {w r n : Nat} (hpos : 0 < n) (hhalf : 2 * n ≤ 2 ^ w)
    (hsize : n < 2 ^ r) :
    n % 2 ^ r = (2 ^ w - n) % 2 ^ r ↔ 2 * n = 2 ^ r ∨ 2 * n = 2 ^ w ∧ w ≤ r := by
  rw [Nat.mod_eq_of_lt hsize]
  rcases Nat.le_total r w with hrw | hwr
  · obtain ⟨c, hc⟩ : 2 ^ r ∣ 2 ^ w := Nat.pow_dvd_pow 2 hrw
    constructor
    · intro heq
      have hdiff : 2 ^ r ∣ 2 ^ w - n - n := by
        refine Nat.dvd_of_mod_eq_zero (Nat.sub_mod_eq_zero_of_mod_eq ?_)
        rw [← heq, Nat.mod_eq_of_lt hsize]
      have hdouble : 2 ^ r ∣ 2 * n := by
        have hsub := Nat.dvd_sub (Nat.pow_dvd_pow 2 hrw) hdiff
        rwa [Nat.sub_sub, ← Nat.two_mul, Nat.sub_sub_self hhalf] at hsub
      exact .inl (Nat.eq_of_dvd_of_lt_two_mul (by omega) hdouble (by omega))
    · intro hcases
      have heq : 2 * n = 2 ^ r := by
        rcases hcases with heq | ⟨heq, hwr⟩
        · exact heq
        · rw [heq, Nat.le_antisymm hwr hrw]
      cases c with
      | zero => omega
      | succ c =>
          have hsum : 2 ^ w - n = 2 ^ r * c + n := by
            rw [hc, Nat.mul_succ]
            omega
          rw [hsum, Nat.mul_add_mod, Nat.mod_eq_of_lt hsize]
  · have hlt : 2 ^ w - n < 2 ^ r := by
      have hpow : 2 ^ w ≤ 2 ^ r := Nat.pow_le_pow_right (by omega) hwr
      omega
    rw [Nat.mod_eq_of_lt hlt]
    constructor
    · intro heq
      exact .inr ⟨by omega, hwr⟩
    · intro hcases
      rcases hcases with heq | ⟨heq, -⟩
      · have hpow : 2 ^ w ≤ 2 ^ r := Nat.pow_le_pow_right (by omega) hwr
        omega
      · omega

/-- The complement of a negative mask. -/
theorem toNat_ofInt_neg {n : Nat} (hpos : 0 < n) (hhalf : n ≤ 2 ^ 31) :
    (BitVec.ofInt 32 (-(n : Int))).toNat = 2 ^ 32 - n := by
  rw [BitVec.toNat_ofInt]
  omega

theorem toNat_ofInt_nonneg {n : Nat} (hlt : n < 2 ^ 31) :
    (BitVec.ofInt 32 (n : Int)).toNat = n := by
  rw [BitVec.toNat_ofInt]
  omega

/-! ## The loop -/

namespace StridedSlice

/-- Enough rounds give the same run as any larger number of them. -/
theorem getMaskBitsFrom_halts {fuel fuel' : Nat} {mask : Int} (h : mask.natAbs < 2 ^ fuel)
    (hle : fuel ≤ fuel') (i : Nat) (bits : List Int) :
    getMaskBitsFrom fuel' mask i bits = getMaskBitsFrom fuel mask i bits := by
  induction fuel generalizing fuel' mask i bits with
  | zero =>
      have hzero : mask = 0 := by simpa using h
      subst hzero
      cases fuel' <;> rfl
  | succ fuel ih =>
      obtain ⟨fuel', rfl⟩ : ∃ k, fuel' = k + 1 := ⟨fuel' - 1, by omega⟩
      have hhalf : (mask.tdiv 2).natAbs < 2 ^ fuel := by
        rw [natAbs_tdiv_two]
        rw [Nat.pow_succ] at h
        omega
      simp only [getMaskBitsFrom, ih hhalf (Nat.le_of_succ_le_succ hle)]

/-- Every bit beyond the vector is a write past its end. -/
theorem getMaskBitsFrom_follows {fuel : Nat} {mask : Int} (h : mask.natAbs < 2 ^ fuel) (i : Nat)
    (bits : List Int) :
    Follows Cmd.pastEnd (getMaskBitsFrom fuel mask i bits)
      (List.replicate (mask.natAbs.size - (bits.length - i)) ()) := by
  induction fuel generalizing mask i bits with
  | zero =>
      have hzero : mask = 0 := by simpa using h
      subst hzero
      rw [Int.natAbs_zero, Nat.size_zero, Nat.zero_sub]
      exact quiet_pure _
  | succ fuel ih =>
      unfold getMaskBitsFrom
      by_cases hzero : mask = 0
      · subst hzero
        rw [if_pos rfl, Int.natAbs_zero, Nat.size_zero, Nat.zero_sub]
        exact quiet_pure _
      · have hhalf : (mask.tdiv 2).natAbs < 2 ^ fuel := by
          rw [natAbs_tdiv_two]
          rw [Nat.pow_succ] at h
          omega
        have hrest := ih hhalf (i + 1) (bits.set i (if mask.tmod 2 = 0 then 0 else 1))
        rw [List.length_set, natAbs_tdiv_two] at hrest
        rw [if_neg hzero, size_eq_size_half (Int.natAbs_ne_zero.mpr hzero)]
        unfold faultIf
        by_cases hout : bits.length ≤ i
        · rw [decide_eq_true hout, if_pos rfl]
          have hcount : (mask.natAbs / 2).size + 1 - (bits.length - i) =
              (mask.natAbs / 2).size - (bits.length - (i + 1)) + 1 := by omega
          rw [hcount, List.replicate_succ]
          exact follows_perform_bind rfl fun _ => hrest
        · have hcount : (mask.natAbs / 2).size + 1 - (bits.length - i) =
              (mask.natAbs / 2).size - (bits.length - (i + 1)) := by omega
          rw [decide_eq_false hout, if_neg Bool.false_ne_true, hcount]
          exact hrest

/-- A write past the end goes on. -/
theorem outcome_faultIf_bind {ng : Ngraph} {nodes : NgraphNodes} {α : Type} {b : Bool} {f : Fault}
    {g : Unit → Gen α} :
    (exec (answer ng) (faultIf b f >>= g) nodes).outcome =
      (exec (answer ng) (g ()) nodes).outcome := by
  cases b with
  | true => rfl
  | false => rfl

/-- The loop writes the bits of the magnitude from its position on. -/
theorem exec_getMaskBitsFrom {ng : Ngraph} {nodes : NgraphNodes} {fuel : Nat} {mask : Int}
    (h : mask.natAbs < 2 ^ fuel) (i : Nat) (bits : List Int)
    (hzeros : ∀ k, i ≤ k → bits.getD k 0 = 0) :
    ∃ bits', (exec (answer ng) (getMaskBitsFrom fuel mask i bits) nodes).outcome = .ok bits' ∧
      bits'.length = bits.length ∧ ∀ k < bits.length, bits'.getD k 0 =
        if i ≤ k then (if mask.natAbs.testBit (k - i) then 1 else 0) else bits.getD k 0 := by
  have hdone : ∀ (i : Nat) (bits : List Int), (∀ k, i ≤ k → bits.getD k 0 = 0) →
      ∀ k < bits.length, bits.getD k 0 =
        if i ≤ k then (if (0 : Int).natAbs.testBit (k - i) then 1 else 0) else bits.getD k 0 := by
    intro i bits hzeros k _
    by_cases hik : i ≤ k
    · rw [if_pos hik, hzeros k hik, Int.natAbs_zero, Nat.zero_testBit, if_neg Bool.false_ne_true]
    · rw [if_neg hik]
  induction fuel generalizing mask i bits with
  | zero =>
      have hzero : mask = 0 := by simpa using h
      subst hzero
      exact ⟨bits, rfl, rfl, hdone i bits hzeros⟩
  | succ fuel ih =>
      unfold getMaskBitsFrom
      by_cases hzero : mask = 0
      · subst hzero
        rw [if_pos rfl]
        exact ⟨bits, rfl, rfl, hdone i bits hzeros⟩
      · have hhalf : (mask.tdiv 2).natAbs < 2 ^ fuel := by
          rw [natAbs_tdiv_two]
          rw [Nat.pow_succ] at h
          omega
        have hset : ∀ k, i ≠ k →
            (bits.set i (if mask.tmod 2 = 0 then 0 else 1)).getD k 0 = bits.getD k 0 := by
          intro k hk
          rw [List.getD_eq_getElem?_getD, List.getElem?_set_ne hk, List.getD_eq_getElem?_getD]
        obtain ⟨bits', hrun, hlength, hentries⟩ := ih hhalf (i + 1)
          (bits.set i (if mask.tmod 2 = 0 then 0 else 1))
          fun k hk => by rw [hset k (by omega), hzeros k (by omega)]
        rw [List.length_set] at hlength hentries
        rw [if_neg hzero, outcome_faultIf_bind]
        refine ⟨bits', hrun, hlength, fun k hk => ?_⟩
        rw [hentries k hk, natAbs_tdiv_two]
        rcases Nat.lt_trichotomy i k with hik | rfl | hki
        · have hbit : k - i = k - (i + 1) + 1 := by omega
          rw [if_pos (Nat.succ_le_of_lt hik), if_pos (Nat.le_of_lt hik), hbit, Nat.testBit_add_one]
        · have hmod := tmod_two_eq_zero_iff mask
          have hentry : (bits.set i (if mask.tmod 2 = 0 then 0 else 1)).getD i 0 =
              if mask.tmod 2 = 0 then 0 else 1 := by
            rw [List.getD_eq_getElem?_getD, List.getElem?_set_self hk]
            rfl
          rw [if_neg (Nat.not_succ_le_self i), if_pos le_rfl, hentry, Nat.sub_self,
            Nat.testBit_zero]
          by_cases heven : mask.natAbs % 2 = 0
          · rw [if_pos (hmod.mpr heven), if_neg (by simp [heven])]
          · rw [if_neg (mt hmod.mp heven), if_pos (by simp; omega)]
        · have hless : ¬ i + 1 ≤ k := by omega
          rw [if_neg hless, if_neg (Nat.not_le_of_lt hki), hset k (Nat.ne_of_gt hki)]

/-! ## The mask -/

/-- The run uses no vector past its end. -/
def InBounds {α : Type} (run : Ran NgraphNodes Cmd Stop α) : Prop :=
  ∀ sc ∈ run.trace, sc.2 ≠ .fault .vectorIndex

/-- The run of `getMaskBits` ends, writes below the size of the vector only, and leaves bit `i`
of the mask's two's complement at entry `i`. -/
structure ReadsMask (ng : Ngraph) (nodes : NgraphNodes) (mask : Int) (size : Nat) : Prop where
  halts : ∀ fuel, 32 ≤ fuel →
    getMaskBitsFrom fuel mask 0 (List.replicate size 0) = getMaskBits mask size
  inBounds : InBounds (exec (answer ng) (getMaskBits mask size) nodes)
  reads : ∃ bits, (exec (answer ng) (getMaskBits mask size) nodes).outcome = .ok bits ∧
    bits.length = size ∧
    ∀ i < size, bits.getD i 0 = if (BitVec.ofInt 32 mask).getLsbD i then 1 else 0

section Mask

variable {ng : Ngraph} {nodes : NgraphNodes} {mask : Int} {size : Nat}

theorem getMaskBits_follows (hlow : -2 ^ 31 ≤ mask) (hhigh : mask < 2 ^ 31) :
    Follows Cmd.pastEnd (getMaskBits mask size)
      (List.replicate (mask.natAbs.size - size) ()) := by
  have hfollows := getMaskBitsFrom_follows (show mask.natAbs < 2 ^ 32 by omega) 0
    (List.replicate size 0)
  rwa [List.length_replicate, Nat.sub_zero] at hfollows

theorem exec_getMaskBits (hlow : -2 ^ 31 ≤ mask) (hhigh : mask < 2 ^ 31) :
    ∃ bits, (exec (answer ng) (getMaskBits mask size) nodes).outcome = .ok bits ∧
      bits.length = size ∧
      ∀ i < size, bits.getD i 0 = if mask.natAbs.testBit i then 1 else 0 := by
  obtain ⟨bits, hrun, hlength, hentries⟩ := @exec_getMaskBitsFrom ng nodes
    32 mask (by omega) 0 (List.replicate size 0) fun k _ => by
      rw [List.getD_eq_getElem?_getD, List.getElem?_replicate]
      split <;> rfl
  rw [List.length_replicate] at hlength hentries
  refine ⟨bits, hrun, hlength, fun i hi => ?_⟩
  rw [hentries i hi, if_pos (Nat.zero_le i), Nat.sub_zero]

/-- The writes are in bounds when the magnitude has no more bits than the vector. -/
theorem getMaskBits_inBounds (hlow : -2 ^ 31 ≤ mask) (hhigh : mask < 2 ^ 31) :
    InBounds (exec (answer ng) (getMaskBits mask size) nodes) ↔ mask.natAbs < 2 ^ size := by
  obtain ⟨bits, hrun, -⟩ := @exec_getMaskBits ng nodes mask size hlow hhigh
  rw [InBounds, ← selected_pastEnd_nil, (getMaskBits_follows hlow hhigh).trace_eq hrun,
    List.replicate_eq_nil_iff, Nat.sub_eq_zero_iff_le, Nat.size_le]

/-- `getMaskBits` reads a mask that fits the vector and is not negative, or one whose only
bit is the highest of the vector's or of an `int32_t`. -/
theorem readsMask_iff (hlow : -2 ^ 31 ≤ mask) (hhigh : mask < 2 ^ 31) :
    ReadsMask ng nodes mask size ↔
      0 ≤ mask ∧ mask < 2 ^ size ∨ 2 * mask = -2 ^ size ∨ mask = -2 ^ 31 ∧ 32 ≤ size := by
  have hbounds := @getMaskBits_inBounds ng nodes mask size hlow hhigh
  obtain ⟨bits, hrun, hlength, hentries⟩ :=
    @exec_getMaskBits ng nodes mask size hlow hhigh
  have hreads : ReadsMask ng nodes mask size ↔ mask.natAbs < 2 ^ size ∧
      ∀ i < size, mask.natAbs.testBit i = (BitVec.ofInt 32 mask).toNat.testBit i := by
    constructor
    · intro h
      refine ⟨hbounds.mp h.inBounds, fun i hi => ?_⟩
      rcases h.reads with ⟨bits', hrun', -, hbits⟩
      rw [hrun, Except.ok.injEq] at hrun'
      have hentry := hbits i hi
      rw [← hrun', hentries i hi] at hentry
      rcases hn : mask.natAbs.testBit i <;> rcases hm : (BitVec.ofInt 32 mask).getLsbD i
      all_goals first
        | exact hm.symm
        | simp [hn, hm] at hentry
    · intro hboth
      rcases hboth with ⟨hsize, hbits⟩
      refine ⟨fun fuel hfuel => getMaskBitsFrom_halts (by omega) hfuel _ _, hbounds.mpr hsize,
        bits, hrun, hlength, fun i hi => ?_⟩
      rw [hentries i hi, hbits i hi]
      rfl
  have hcast : (2 : Int) ^ size = ((2 ^ size : Nat) : Int) := by push_cast; rfl
  rw [hreads, hcast]
  rcases Int.lt_or_le mask 0 with hneg | hnonneg
  · obtain ⟨n, rfl⟩ : ∃ n : Nat, mask = -(n : Int) := ⟨mask.natAbs, by omega⟩
    rw [testBit_agree_iff, Int.natAbs_neg, Int.natAbs_natCast,
      toNat_ofInt_neg (by omega) (by omega)]
    constructor
    · intro hboth
      rcases hboth with ⟨hsize, hagree⟩
      rcases (complement_agrees_iff (by omega) (by omega) hsize).mp hagree with heq | ⟨heq, hle⟩
      · exact .inr (.inl (by omega))
      · exact .inr (.inr ⟨by omega, hle⟩)
    · intro hcases
      rcases hcases with ⟨hnonneg, -⟩ | heq | ⟨heq, hle⟩
      · omega
      · have hsize : n < 2 ^ size := by omega
        exact ⟨hsize, (complement_agrees_iff (by omega) (by omega) hsize).mpr (.inl (by omega))⟩
      · have hpow : 2 ^ 32 ≤ 2 ^ size := Nat.pow_le_pow_right (by omega) hle
        have hsize : n < 2 ^ size := by omega
        exact ⟨hsize, (complement_agrees_iff (by omega) (by omega) hsize).mpr
          (.inr ⟨by omega, hle⟩)⟩
  · obtain ⟨n, rfl⟩ : ∃ n : Nat, mask = n := ⟨mask.natAbs, by omega⟩
    rw [Int.natAbs_natCast, toNat_ofInt_nonneg (by omega)]
    have hpos : 0 < 2 ^ size := Nat.two_pow_pos size
    constructor
    · intro hboth
      rcases hboth with ⟨hsize, -⟩
      exact .inl ⟨hnonneg, by omega⟩
    · intro hcases
      rcases hcases with ⟨-, hsize⟩ | heq | ⟨heq, -⟩
      · exact ⟨by omega, fun _ _ => rfl⟩
      · omega
      · omega

end Mask

/-! ## The operation -/

theorem bmod_int32 (n : Int) : -2 ^ 31 ≤ n.bmod (2 ^ 32) ∧ n.bmod (2 ^ 32) < 2 ^ 31 := by
  have hlow := @Int.le_bmod n (2 ^ 32) (by decide)
  have hhigh := @Int.bmod_lt n (2 ^ 32) (by decide)
  exact ⟨by omega, by omega⟩

theorem decode_int32 (bytes : List UInt8) :
    CType.int32.decode bytes =
      (littleEndian (bytes.take CType.int32.size) : Int).bmod (2 ^ 32) := by
  unfold CType.decode
  rfl

theorem scalarValue_int32 (info : NnapiModelInfo) (index : Nat) :
    -2 ^ 31 ≤ info.scalarValue .int32 index ∧ info.scalarValue .int32 index < 2 ^ 31 := by
  unfold NnapiModelInfo.scalarValue
  cases info.operandBuffer index with
  | none => simp only [Option.map_none, Option.getD_none]; omega
  | some bytes =>
      rw [Option.map_some, Option.getD_some, decode_int32]
      exact bmod_int32 _

/-- The magnitude of the mask at an input has no more bits than the tensor has axes. -/
def MaskFits (base : OperationsBase) (index : Nat) : Prop :=
  (base.sModelInfo.scalarValue .int32 (base.inputIndex index)).natAbs <
    2 ^ (base.getInputOperandDimensions 0).length

/-- The part of `validate` that writes: the shrink mask is read into a vector. -/
def shrinkAxisMaskBits (self : OperationsBase) : Gen (List Int) := do
  let shrinkAxisMask ← self.parseOperationInput .int32 6
  getMaskBits shrinkAxisMask (self.getInputOperandDimensions 0).length

section Operation

variable {ng : Ngraph} {nodes : NgraphNodes} {self : OperationsBase}

/-- `validate` rejects, or reads the shrink mask and writes nothing after that. -/
theorem validate_cases (self : OperationsBase) :
    validate self = pure false ∨
      validate self = shrinkAxisMaskBits self >>= fun bits =>
        validateAxes self bits (List.range (self.getInputOperandDimensions 0).length) := by
  simp only [validate]
  split
  · exact .inl rfl
  · split
    · exact .inl rfl
    · split
      · exact .inl rfl
      · split
        · exact .inl rfl
        · exact .inr (bind_assoc ..).symm

/-- The writes past the end that the mask at an input makes. -/
def writesPastEnd (self : OperationsBase) (index : Nat) : List Unit :=
  List.replicate ((self.sModelInfo.scalarValue .int32 (self.inputIndex index)).natAbs.size -
    (self.getInputOperandDimensions 0).length) ()

theorem writesPastEnd_nil {index : Nat} : writesPastEnd self index = [] ↔ MaskFits self index := by
  unfold writesPastEnd MaskFits
  rw [List.replicate_eq_nil_iff, Nat.sub_eq_zero_iff_le, Nat.size_le]

/-- A mask is read and its bits are written. -/
theorem maskBits_follows {α : Type} {index : Nat} {f : List Int → Gen α} {us : List Unit}
    {mask : Int} (hmask : mask = self.sModelInfo.scalarValue .int32 (self.inputIndex index))
    (hf : ∀ bits, Follows Cmd.pastEnd (f bits) us) :
    Follows Cmd.pastEnd (getMaskBits mask (self.getInputOperandDimensions 0).length >>= f)
      (writesPastEnd self index ++ us) := by
  subst hmask
  have hint := scalarValue_int32 self.sModelInfo (self.inputIndex index)
  exact (getMaskBits_follows hint.1 hint.2).bind hf

theorem parseMask_follows {α : Type} {index : Nat} {f : Int → Gen α} {us : List Unit}
    (hf : ∀ mask, mask = self.sModelInfo.scalarValue .int32 (self.inputIndex index) →
      Follows Cmd.pastEnd (f mask) us) :
    Follows Cmd.pastEnd (self.parseOperationInput .int32 index >>= f) us :=
  Follows.bind_yields bounded_of_plain (NnapiModelInfo.yields_getConstOperand _ _) hf

/-- `createNode` writes the bits of three masks. -/
theorem createNode_follows :
    Follows Cmd.pastEnd (createNode self)
      (writesPastEnd self 4 ++ (writesPastEnd self 5 ++ (writesPastEnd self 6 ++ []))) := by
  apply bounded_of_plain.bind
  intro data
  apply bounded_of_plain.bind
  intro first
  apply bounded_of_plain.bind
  intro last
  apply bounded_of_plain.bind
  intro strides
  apply parseMask_follows
  intro beginMask hbegin
  apply parseMask_follows
  intro endMask hend
  apply parseMask_follows
  intro shrinkAxisMask hshrink
  apply maskBits_follows hbegin
  intro beginBits
  apply maskBits_follows hend
  intro endBits
  exact maskBits_follows hshrink fun shrinkBits => quiet_perform rfl

/-- `validate` writes those of one. -/
theorem shrinkAxisMaskBits_follows :
    Follows Cmd.pastEnd (shrinkAxisMaskBits self) (writesPastEnd self 6) := by
  apply parseMask_follows
  intro mask hmask
  have hint := scalarValue_int32 self.sModelInfo (self.inputIndex 6)
  rw [hmask]
  exact getMaskBits_follows hint.1 hint.2

/-- A run of a program without a write past the end is in bounds, and only such a run
returns in bounds. -/
theorem inBounds_of_follows {α : Type} {p : Gen α} {us : List Unit}
    (hp : Follows Cmd.pastEnd p us) :
    (us = [] → InBounds (exec (answer ng) p nodes)) ∧
      ∀ a, (exec (answer ng) p nodes).outcome = .ok a →
        InBounds (exec (answer ng) p nodes) → us = [] := by
  constructor
  · intro heq
    subst heq
    exact selected_pastEnd_nil.mp (Quiet.selected_nil hp _ _)
  · intro a hrun hbounds
    rw [← hp.trace_eq hrun]
    exact selected_pastEnd_nil.mpr hbounds

/-- **The masks.**  `getMaskBits` does what it is for exactly when the mask is not negative
and fits the vector, or its only bit is the highest of the vector's or of an `int32_t`.
`createNode`, and the part of `validate` that writes, are in bounds when the magnitudes of
their masks fit the rank of the tensor, and a run that returns only then. -/
theorem getMaskBits_iff (ng : Ngraph) (nodes : NgraphNodes) (self : OperationsBase) :
    (∀ (mask : Int) (size : Nat), -2 ^ 31 ≤ mask → mask < 2 ^ 31 →
      (ReadsMask ng nodes mask size ↔
        0 ≤ mask ∧ mask < 2 ^ size ∨ 2 * mask = -2 ^ size ∨ mask = -2 ^ 31 ∧ 32 ≤ size)) ∧
    ((MaskFits self 4 ∧ MaskFits self 5 ∧ MaskFits self 6 →
        InBounds (exec (answer ng) (createNode self) nodes)) ∧
      ∀ node, (exec (answer ng) (createNode self) nodes).outcome = .ok node →
        InBounds (exec (answer ng) (createNode self) nodes) →
          MaskFits self 4 ∧ MaskFits self 5 ∧ MaskFits self 6) ∧
    (validate self = pure false ∨
      validate self = shrinkAxisMaskBits self >>= fun bits =>
        validateAxes self bits (List.range (self.getInputOperandDimensions 0).length)) ∧
    (MaskFits self 6 → InBounds (exec (answer ng) (shrinkAxisMaskBits self) nodes)) ∧
      ∀ bits, (exec (answer ng) (shrinkAxisMaskBits self) nodes).outcome = .ok bits →
        InBounds (exec (answer ng) (shrinkAxisMaskBits self) nodes) → MaskFits self 6 := by
  refine ⟨fun _ _ => readsMask_iff, ?_, validate_cases self, ?_⟩
  · have hfits : writesPastEnd self 4 ++ (writesPastEnd self 5 ++ (writesPastEnd self 6 ++ [])) =
        [] ↔ MaskFits self 4 ∧ MaskFits self 5 ∧ MaskFits self 6 := by
      rw [List.append_nil, List.append_eq_nil_iff, List.append_eq_nil_iff, writesPastEnd_nil,
        writesPastEnd_nil, writesPastEnd_nil]
    rw [← hfits]
    exact inBounds_of_follows createNode_follows
  · rw [← writesPastEnd_nil]
    exact inBounds_of_follows shrinkAxisMaskBits_follows

/-- A slice of a tensor of rank two. -/
def sampleSlice : OperationsBase :=
  sampleOperation .stridedSlice [[2, 2], [2], [2], [2]] [(.int32, 1), (.int32, 2), (.int32, 3)]

/-- The mask five of a vector of three entries is read, and the three masks of the slice are
written in bounds. -/
theorem readsMask_five :
    ReadsMask .permissive {} 5 3 ∧
      InBounds (exec (answer .permissive) (createNode sampleSlice)
        (sampleNodes [[2, 2], [2], [2], [2]])) ∧
      InBounds (exec (answer .permissive) (shrinkAxisMaskBits sampleSlice)
        (sampleNodes [[2, 2], [2], [2], [2]])) := by
  have hfive := ((getMaskBits_iff .permissive {} sampleSlice).1 5 3 (by decide) (by decide)).mpr
    (.inl (by decide))
  obtain ⟨-, hcreate, -, hshrink, -⟩ :=
    getMaskBits_iff .permissive (sampleNodes [[2, 2], [2], [2], [2]]) sampleSlice
  have hfits : MaskFits sampleSlice 4 ∧ MaskFits sampleSlice 5 ∧ MaskFits sampleSlice 6 := by
    unfold MaskFits
    decide
  have hback := hcreate.2 _ rfl (hcreate.1 hfits)
  exact ⟨hfive, hcreate.1 hback, hshrink hback.2.2⟩

/-- The mask four has three bits, and a vector of two entries no room for the last one. -/
theorem maskFour_outOfBounds :
    ¬ ∀ (ng : Ngraph) (nodes : NgraphNodes) (mask : Int) (size : Nat),
      -2 ^ 31 ≤ mask → mask < 2 ^ 31 → ReadsMask ng nodes mask size := by
  intro h
  have hreads := h .permissive {} 4 2 (by decide) (by decide)
  have hsize := (getMaskBits_inBounds (by decide) (by decide)).mp hreads.inBounds
  exact absurd hsize (by decide)

end Operation

end StridedSlice

end NnHal
