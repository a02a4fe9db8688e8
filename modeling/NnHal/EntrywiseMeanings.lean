import NnHal.RealMeanings

/-!
# Elementwise operations over the real numbers

What the elementwise classes build denotes what NNAPI says of their operations:
one function for every entry, or for every pair of entries that broadcasting
brings together.
-/

namespace NnHal

open Command Tensors Quantization

/-! ## A single entry on the left -/

/-- A vector of one entry takes the shape of the other tensor. -/
theorem broadcastShape_one {shape : List Nat} (hrank : shape ≠ []) :
    Tensor.broadcastShape [1] shape = shape := by
  obtain ⟨d, ds, rfl⟩ := List.exists_cons_of_ne_nil hrank
  have hmax : max 1 (ds.length + 1) = ds.length + 1 := by omega
  unfold Tensor.broadcastShape
  simp only [List.length_cons, List.length_nil, Nat.zero_add, hmax, Nat.add_sub_cancel,
    Nat.sub_self, List.replicate_zero, List.nil_append]
  have hones : ∀ l : List Nat,
      List.zipWith (fun a b => if a = 1 then b else a) (List.replicate l.length 1) l = l := by
    intro l
    induction l with
    | nil => rfl
    | cons a l ih =>
        rw [List.length_cons, List.replicate_succ, List.zipWith_cons_cons, ih, if_pos rfl]
  have hreplicate : List.replicate ds.length 1 ++ [1] = List.replicate (d :: ds).length 1 := by
    rw [List.length_cons, List.replicate_succ']
  rw [hreplicate, hones]

theorem broadcastable_one (shape : List Nat) : Broadcastable [1] shape := by
  intro k
  cases k with
  | zero => exact .inr (.inl rfl)
  | succ k => exact .inr (.inl (by simp))

/-- Where a vector of one entry is read. -/
theorem alignIndex_one {index : List Int} (hrank : index ≠ []) :
    Tensor.alignIndex [1] index = [0] := by
  obtain ⟨is, i, rfl⟩ := List.eq_nil_or_concat index |>.resolve_left hrank
  simp [Tensor.alignIndex]

/-- A function of the one entry and of every other one. -/
theorem broadcast_one_left {f : ℝ → ℝ → ℝ} {c x : Tensor ℝ} {v : ℝ} (hc : c.shape = [1])
    (hv : c.get [0] = v) (hrank : x.shape ≠ []) :
    Tensor.broadcast f c x = x.map fun u => f v u := by
  have hshape : Tensor.broadcastShape c.shape x.shape = x.shape := by
    rw [hc, broadcastShape_one hrank]
  apply Tensor.ext_inside hshape
  intro index hin
  have hin' : Inside x.shape index := by
    rw [← hshape]
    exact hin
  have hindex : index ≠ [] := by
    intro hnil
    have hlength := hin'.length_eq
    rw [hnil] at hlength
    exact hrank (List.length_eq_zero_iff.mp hlength.symm)
  rw [Tensor.get_broadcast hin, Tensor.get_map hin', Tensor.alignIndex_self hin', hc,
    alignIndex_one hindex, hv]

/-! ## The classes -/

section Classes

variable {M : Meaning ℝ} {ng : Ngraph} {nodes : NgraphNodes} {self : OperationsBase}
variable {g : Arguments} {y : Tensor ℝ}

/-- A class with one input. -/
theorem unaryNode_denotes (hM : M.Computable) (hg : self.Meets ng M nodes g) (op : NodeOp)
    {f : Entrywise} (hop : op.entrywise = some f) (h : g.unary f = some y) :
    Returns (answer ng) nodes (self.unaryNode op) fun node => node.denote M 0 = y := by
  obtain ⟨x, hx, h⟩ := Option.bind_eq_some_iff.mp h
  split at h
  · next hf =>
    obtain rfl := Option.some.inj h
    apply (hg.tensor 0 x hx).bind
    intro input hinput
    exact returns_entrywise hM op hop hinput hf
  · cases h

/-- A class with two inputs. -/
theorem binaryNode_denotes (hM : M.Computable) (hg : self.Meets ng M nodes g) (op : NodeOp)
    {f : Pairwise} (hop : op.pairwise = some f) (h : g.binary f = some y) :
    Returns (answer ng) nodes (self.binaryNode op) fun node => node.denote M 0 = y := by
  obtain ⟨x, hx, h⟩ := Option.bind_eq_some_iff.mp h
  obtain ⟨x', hx', h⟩ := Option.bind_eq_some_iff.mp h
  split at h
  · next hf =>
    obtain rfl := Option.some.inj h
    apply (hg.tensor 0 x hx).bind
    intro input hinput
    apply (hg.tensor 1 x' hx').bind
    intro input' hinput'
    exact returns_pairwise hM op hop hinput hinput' hf
  · cases h

/-- A class with two inputs and a fused activation. -/
theorem activatedNode_denotes (hM : M.Computable) (hg : self.Meets ng M nodes g) (op : NodeOp)
    {f : Pairwise} (hop : op.pairwise = some f) (h : g.activated f = some y) :
    Returns (answer ng) nodes (self.activatedNode op) fun node => node.denote M 0 = y := by
  obtain ⟨z, hz, h⟩ := Option.bind_eq_some_iff.mp h
  obtain ⟨code, hcode, rfl⟩ := Option.map_eq_some_iff.mp h
  obtain ⟨x, hx, hz⟩ := Option.bind_eq_some_iff.mp hz
  obtain ⟨x', hx', hz⟩ := Option.bind_eq_some_iff.mp hz
  split at hz
  · next hf =>
    obtain rfl := Option.some.inj hz
    apply (hg.tensor 0 x hx).bind
    intro input hinput
    apply (hg.tensor 1 x' hx').bind
    intro input' hinput'
    apply (hg.activation hcode).bind
    intro activationFn hactivation
    apply (returns_pairwise hM op hop hinput hinput' hf).bind
    intro node hnode
    rw [hactivation, ← hnode]
    exact returns_applyActivation hM.toAddsBias
  · cases hz

/-- `RSQRT` divides one by the root. -/
theorem RSQRT.createNode_denotes (hM : M.Computable) (hg : self.Meets ng M nodes g)
    (h : g.rsqrt = some y) :
    Returns (answer ng) nodes (RSQRT.createNode self) fun node => node.denote M 0 = y := by
  obtain ⟨x, hx, h⟩ := Option.bind_eq_some_iff.mp h
  split at h
  · next hf =>
    rcases hf with ⟨hrank, hf⟩
    obtain rfl := Option.some.inj h
    apply (hg.tensor 0 x hx).bind
    intro input hinput
    have hsqrt : Entrywise.sqrt.DefinedOn x := fun index hin => (hf index hin).le
    apply (returns_entrywise hM .sqrt rfl hinput hsqrt).bind
    intro root hroot
    have hone : (Scalar.decimal 1 0).real = 1 := by simp [Scalar.real, Scalar.value]
    -- the constant is one in either type
    refine Returns.bind (Q := fun node => (node.denote M 0).shape = [1] ∧
      (node.denote M 0).get [0] = 1) ?_ fun one hnode => ?_
    · have hconstant : ∀ type : ElementType, type.Holds (Scalar.decimal 1 0).real →
          Returns (answer ng) nodes (createConstNode type [1] [.decimal 1 0]) fun node =>
            (node.denote M 0).shape = [1] ∧ (node.denote M 0).get [0] = 1 := by
        intro type hholds
        have hall : ∀ s ∈ [Scalar.decimal 1 0], s.Finite ∧ type.Holds s.real := by
          intro s hs
          rw [List.mem_singleton.mp hs]
          exact ⟨trivial, hholds⟩
        apply returns_const
        rw [Node.denote, Node.denoteAll, hM.number type [1] _ rfl hall]
        refine ⟨rfl, ?_⟩
        rw [constantTensor, Tensor.get_ofFn (by decide)]
        exact hone
      exact returns_ite (fun _ => hconstant .f16 trivial) fun _ => hconstant .f32 trivial
    · have hdefined : Pairwise.div.DefinedOn (one.denote M 0) (x.map Entrywise.sqrt.apply) := by
        rw [Pairwise.DefinedOn, hnode.1, Tensor.shape_map]
        refine ⟨broadcastable_one _, fun index hin => ?_⟩
        rw [broadcastShape_one hrank] at hin
        rw [Tensor.alignIndex_self hin, Tensor.get_map hin]
        exact (Real.sqrt_pos.mpr (hf index hin)).ne'
      have hrank' : (x.map Entrywise.sqrt.apply).shape ≠ [] := hrank
      apply (returns_pairwise hM .divide rfl rfl hroot hdefined).mono
      intro r hr
      rw [hr, broadcast_one_left hnode.1 hnode.2 hrank']
      exact Tensor.map_map _ _ _
  · cases h

theorem Select.createNode_denotes (hM : M.Computable) (hg : self.Meets ng M nodes g)
    (h : g.select = some y) :
    Returns (answer ng) nodes (Select.createNode self) fun node => node.denote M 0 = y := by
  obtain ⟨c, hc, h⟩ := Option.bind_eq_some_iff.mp h
  obtain ⟨x, hx, h⟩ := Option.bind_eq_some_iff.mp h
  obtain ⟨x', hx', h⟩ := Option.bind_eq_some_iff.mp h
  split at h
  · next hshapes =>
    obtain rfl := Option.some.inj h
    apply (hg.tensor 0 c hc).bind
    intro input1 hinput1
    apply (hg.tensor 1 x hx).bind
    intro input2 hinput2
    apply (hg.tensor 2 x' hx').bind
    intro input3 hinput3
    apply returns_make
    have hselect := hM.select c x x' hshapes.1 hshapes.2
    simpa [Node.denote, Node.denoteAll, Node.denoteOutput, hinput1, hinput2, hinput3] using hselect
  · cases h

theorem Dequantize.createNode_denotes (hM : M.Computable) (hg : self.Meets ng M nodes g)
    (h : g.dequantize = some y) :
    Returns (answer ng) nodes (Dequantize.createNode self) fun node => node.denote M 0 = y := by
  unfold Arguments.dequantize at h
  split at h
  · next hquantized =>
    obtain ⟨q, hq, hload⟩ := Option.bind_eq_some_iff.mp h
    rw [hg.operand] at hquantized hload
    rcases load_eq_some hload with ⟨hplain, -⟩ | ⟨-, a, ha, rfl⟩
    · rw [hplain] at hquantized
      cases hquantized
    · apply (hg.stored 0 q hq).bind
      intro input hinput
      have hloaded := fun type => @returns_loaded M ng nodes self (self.inputIndex 0) a hM ha input
        type
      rw [hinput] at hloaded
      exact returns_ite (fun _ => hloaded .f16) fun _ => hloaded .f32
  · cases h

end Classes

end NnHal
