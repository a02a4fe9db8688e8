import NnHal.Tensors

/-!
# Tensors in buffers

A buffer holds the entries of a tensor one after the other, the last axis
fastest.  A format says how many bytes an entry has and which bytes stand for
which entry, as a relation, so that it covers numbers that are rounded.  Converting
every element of a buffer gives a buffer in the converted format.
-/

namespace Tensors

variable {α : Type} [Zero α]

/-- How the entries of a buffer are kept. -/
structure Format (α : Type) where
  size : Nat
  StandsFor : List UInt8 → α → Prop

/-- An element of a buffer. -/
def element (size : Nat) (bytes : List UInt8) (i : Nat) : List UInt8 :=
  (bytes.drop (size * i)).take size

/-- The elements of a buffer, converted one by one. -/
def mapElements (size count : Nat) (convert : List UInt8 → List UInt8) (bytes : List UInt8) :
    List UInt8 :=
  (List.range count).flatMap fun i => convert (element size bytes i)

namespace Format

/-- The buffer holds the tensor. -/
structure Holds (f : Format α) (bytes : List UInt8) (x : Tensor α) : Prop where
  length : bytes.length = f.size * x.shape.prod
  entry : ∀ index, Inside x.shape index →
    f.StandsFor (element f.size bytes (flat x.shape index).toNat) (x.get index)

/-- The format of elements that have been converted. -/
def converted (f : Format α) (size : Nat) (convert : List UInt8 → List UInt8) : Format α where
  size := size
  StandsFor bytes v := ∃ source, f.StandsFor source v ∧ bytes = convert source

/-- The format of elements that a conversion makes elements of this one. -/
def convertedFrom (f : Format α) (size : Nat) (convert : List UInt8 → List UInt8) : Format α where
  size := size
  StandsFor bytes v := f.StandsFor (convert bytes) v

end Format

/-! ## Elements -/

theorem length_mapElements {size count width : Nat} {convert : List UInt8 → List UInt8}
    (hconvert : ∀ bytes, (convert bytes).length = width) (bytes : List UInt8) :
    (mapElements size count convert bytes).length = width * count := by
  unfold mapElements
  induction count with
  | zero => rfl
  | succ count ih =>
      rw [List.range_succ, List.flatMap_append, List.length_append, ih, List.flatMap_singleton,
        hconvert, Nat.mul_succ]

theorem mapElements_succ (size count : Nat) (convert : List UInt8 → List UInt8)
    (bytes : List UInt8) :
    mapElements size (count + 1) convert bytes =
      mapElements size count convert bytes ++ convert (element size bytes count) := by
  unfold mapElements
  rw [List.range_succ, List.flatMap_append, List.flatMap_singleton]

/-- An element after the conversion is the converted element. -/
theorem element_mapElements {size count width i : Nat} {convert : List UInt8 → List UInt8}
    (hconvert : ∀ bytes, (convert bytes).length = width) (bytes : List UInt8) (hi : i < count) :
    element width (mapElements size count convert bytes) i =
      convert (element size bytes i) := by
  induction count with
  | zero => cases hi
  | succ count ih =>
      have hlength := @length_mapElements size count width convert hconvert bytes
      rw [mapElements_succ]
      unfold element at ih ⊢
      rcases Nat.lt_succ_iff_lt_or_eq.mp hi with hlt | heq
      · have hend : width * i + width ≤ width * count := by
          rw [← Nat.mul_succ]
          exact Nat.mul_le_mul_left width hlt
        rw [List.drop_append_of_le_length (by omega), List.take_append_of_le_length (by
          rw [List.length_drop]
          omega)]
        exact ih hlt
      · subst heq
        rw [← hlength, List.drop_left, List.take_of_length_le (by rw [hconvert])]

/-- The position of an entry in the buffer. -/
theorem toNat_flat_lt {shape : List Nat} {index : List Int} (h : Inside shape index) :
    (flat shape index).toNat < shape.prod := by
  obtain ⟨hlow, hhigh⟩ := flat_bounds h
  omega

/-! ## Conversions keep what a buffer holds -/

namespace Format.Holds

variable {f : Format α} {bytes : List UInt8} {x : Tensor α} {size : Nat}
variable {convert : List UInt8 → List UInt8}

/-- From the format to the converted one. -/
theorem converted (h : f.Holds bytes x) (hconvert : ∀ bytes, (convert bytes).length = size) :
    (f.converted size convert).Holds (mapElements f.size x.shape.prod convert bytes) x where
  length := length_mapElements hconvert bytes
  entry index hin := by
    refine ⟨_, h.entry index hin, ?_⟩
    exact element_mapElements hconvert bytes (toNat_flat_lt hin)

/-- Into the format by the conversion. -/
theorem convertedFrom (h : (f.convertedFrom size convert).Holds bytes x)
    (hconvert : ∀ bytes, (convert bytes).length = f.size) :
    f.Holds (mapElements size x.shape.prod convert bytes) x where
  length := length_mapElements hconvert bytes
  entry index hin := by
    rw [element_mapElements hconvert bytes (toNat_flat_lt hin)]
    exact h.entry index hin

end Format.Holds

end Tensors
