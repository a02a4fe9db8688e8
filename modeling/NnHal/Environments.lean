import Mathlib.Data.List.Basic
import Mathlib.Data.List.Forall2
import Mathlib.Logic.Function.Basic

/-!
# Straight-line programs

A step reads an environment and gives a value to each of its targets.  It can
fail, and a program fails with its first step that does.  Where no variable is
the target of two steps, a value stays once it is there.
-/

namespace StraightLine

variable {V : Type}

/-- The values of the variables that have one. -/
abbrev Environment (V : Type) := Nat → Option V

/-- Give values to variables, one after the other. -/
def Environment.assign (env : Environment V) : List Nat → List V → Environment V
  | x :: xs, v :: vs => Environment.assign (Function.update env x (some v)) xs vs
  | _, _ => env

structure Step (V : Type) where
  targets : List Nat
  compute : Environment V → Option (List V)

/-- What a step makes of an environment. -/
def Step.run (step : Step V) (env : Environment V) : Option (Environment V) :=
  (step.compute env).bind fun values =>
    if values.length = step.targets.length then some (env.assign step.targets values) else none

/-- What a program makes of an environment. -/
def run : List (Step V) → Environment V → Option (Environment V)
  | [], env => some env
  | step :: steps, env => (step.run env).bind (run steps)

/-- The variables a program gives values to. -/
def targets (steps : List (Step V)) : List Nat := steps.flatMap (·.targets)

section Lemmas

variable {env env' : Environment V} {x : Nat}

theorem assign_of_notMem {xs : List Nat} {vs : List V} (h : x ∉ xs) :
    env.assign xs vs x = env x := by
  induction xs generalizing env vs with
  | nil => rfl
  | cons y ys ih =>
      obtain ⟨hy, hys⟩ := not_or.mp (mt List.mem_cons.mpr h)
      cases vs with
      | nil => rfl
      | cons v vs => exact (ih hys).trans (Function.update_of_ne hy _ _)

/-- Assigning in two parts. -/
theorem assign_cons {xs : List Nat} {v : V} {vs : List V} :
    env.assign (x :: xs) (v :: vs) = Environment.assign (Function.update env x (some v)) xs vs :=
  rfl

/-- A step that succeeds has a value for each target. -/
theorem Step.run_eq_some {step : Step V} :
    step.run env = some env' ↔ ∃ values, step.compute env = some values ∧
      values.length = step.targets.length ∧ env' = env.assign step.targets values := by
  unfold Step.run
  rw [Option.bind_eq_some_iff]
  constructor
  · intro h
    obtain ⟨values, hvalues, hrun⟩ := h
    split at hrun
    · next hlength => exact ⟨values, hvalues, hlength, (Option.some.inj hrun).symm⟩
    · cases hrun
  · intro h
    obtain ⟨values, hvalues, hlength, rfl⟩ := h
    exact ⟨values, hvalues, by rw [if_pos hlength]⟩

theorem run_cons {step : Step V} {steps : List (Step V)} {last : Environment V} :
    run (step :: steps) env = some last ↔
      ∃ env', step.run env = some env' ∧ run steps env' = some last :=
  Option.bind_eq_some_iff

/-- What is no target stays as it is. -/
theorem run_of_notMem {steps : List (Step V)} (hrun : run steps env = some env')
    (h : x ∉ targets steps) : env' x = env x := by
  induction steps generalizing env with
  | nil =>
      cases hrun
      rfl
  | cons step steps ih =>
      obtain ⟨middle, hstep, hrest⟩ := run_cons.mp hrun
      obtain ⟨values, -, -, rfl⟩ := Step.run_eq_some.mp hstep
      rw [targets, List.flatMap_cons, List.mem_append, not_or] at h
      rw [ih hrest h.2, assign_of_notMem h.1]

/-- Variables keep a value through assignments. -/
theorem isSome_assign {xs : List Nat} {vs : List V} (h : (env x).isSome = true) :
    (env.assign xs vs x).isSome = true := by
  induction xs generalizing env vs with
  | nil => exact h
  | cons y ys ih =>
      cases vs with
      | nil => exact h
      | cons v vs =>
          apply ih
          by_cases hxy : x = y
          · subst hxy
            rw [Function.update_self]
            rfl
          · rwa [Function.update_of_ne hxy]

/-- The targets of an assignment have a value. -/
theorem isSome_assign_of_mem {xs : List Nat} {vs : List V} (hlength : vs.length = xs.length)
    (h : x ∈ xs) : (env.assign xs vs x).isSome = true := by
  induction xs generalizing env vs with
  | nil => cases h
  | cons y ys ih =>
      cases vs with
      | nil => cases hlength
      | cons v vs =>
          rw [assign_cons]
          rcases List.mem_cons.mp h with rfl | hys
          · apply isSome_assign
            rw [Function.update_self]
            rfl
          · exact ih (Nat.succ.inj hlength) hys

/-- Values stay through a program. -/
theorem isSome_run {steps : List (Step V)} (hrun : run steps env = some env')
    (h : (env x).isSome = true) : (env' x).isSome = true := by
  induction steps generalizing env with
  | nil =>
      cases hrun
      exact h
  | cons step steps ih =>
      obtain ⟨middle, hstep, hrest⟩ := run_cons.mp hrun
      obtain ⟨values, -, -, rfl⟩ := Step.run_eq_some.mp hstep
      exact ih hrest (isSome_assign h)

/-- The targets of a program that succeeds have values. -/
theorem isSome_of_mem_targets {steps : List (Step V)} (hrun : run steps env = some env')
    (h : x ∈ targets steps) : (env' x).isSome = true := by
  induction steps generalizing env with
  | nil => cases h
  | cons step steps ih =>
      obtain ⟨middle, hstep, hrest⟩ := run_cons.mp hrun
      rw [targets, List.flatMap_cons, List.mem_append] at h
      rcases h with hfirst | hlater
      · obtain ⟨values, -, hlength, rfl⟩ := Step.run_eq_some.mp hstep
        exact isSome_run hrest (isSome_assign_of_mem hlength hfirst)
      · exact ih hrest hlater

end Lemmas

/-! ## Programs as equations

Where every step reads what no later step writes, the environment a program ends
with is the only one that solves its steps as equations.  So a rearrangement of the
steps that keeps to this ends with the same one.
-/

section Equations

variable {env env' : Environment V} {x : Nat}

/-- The step computes the same from environments that agree on these variables. -/
def Step.Reads (step : Step V) (xs : List Nat) : Prop :=
  ∀ env env' : Environment V, (∀ x ∈ xs, env x = env' x) → step.compute env = step.compute env'

/-- No variable is written twice, and none by a step that reads it or by an earlier
one. -/
def Ordered : List (Step V) → Prop
  | [] => True
  | step :: steps =>
      (∃ xs, step.Reads xs ∧ ∀ x ∈ xs, x ∉ targets (step :: steps)) ∧ step.targets.Nodup ∧
        (∀ x ∈ step.targets, x ∉ targets steps) ∧ Ordered steps

/-- The environment holds what the step computes from it. -/
def Step.Solves (step : Step V) (env : Environment V) : Prop :=
  ∃ values, step.compute env = some values ∧
    List.Forall₂ (fun x v => env x = some v) step.targets values

/-- The environment solves the steps and is the first one elsewhere. -/
structure Solution (steps : List (Step V)) (first env : Environment V) : Prop where
  elsewhere : ∀ x ∉ targets steps, env x = first x
  solves : ∀ step ∈ steps, step.Solves env

theorem forall₂_assign {xs : List Nat} {vs : List V} (hnodup : xs.Nodup)
    (hlength : vs.length = xs.length) :
    List.Forall₂ (fun x v => env.assign xs vs x = some v) xs vs := by
  induction xs generalizing env vs with
  | nil =>
      obtain rfl := List.length_eq_zero_iff.mp hlength
      exact .nil
  | cons x xs ih =>
      cases vs with
      | nil => cases hlength
      | cons v vs =>
          obtain ⟨hx, hxs⟩ := List.nodup_cons.mp hnodup
          refine .cons ?_ (ih hxs (Nat.succ.inj hlength))
          rw [assign_cons, assign_of_notMem hx, Function.update_self]

/-- An environment that holds the values assigned, and is the same elsewhere, is the
result of the assignment. -/
theorem assign_eq {xs : List Nat} {vs : List V}
    (hvalues : List.Forall₂ (fun x v => env' x = some v) xs vs)
    (hx : x ∈ xs ∨ env' x = env x) : env.assign xs vs x = env' x := by
  induction hvalues generalizing env with
  | nil =>
      rcases hx with hx | hx
      · cases hx
      · exact hx.symm
  | @cons y v ys vs hy _ ih =>
      rw [assign_cons]
      apply ih
      by_cases hxy : x = y
      · right
        rw [hxy, Function.update_self, hy]
      · rw [Function.update_of_ne hxy]
        exact hx.imp_left fun hmem => (List.mem_cons.mp hmem).resolve_left hxy

/-- What a program ends with solves its steps. -/
theorem run_solution {steps : List (Step V)} (hordered : Ordered steps)
    (hrun : run steps env = some env') : Solution steps env env' := by
  refine ⟨fun x hx => run_of_notMem hrun hx, ?_⟩
  induction steps generalizing env with
  | nil => nofun
  | cons step steps ih =>
      obtain ⟨⟨xs, hreads, hlater⟩, hnodup, hdisjoint, hrest⟩ := hordered
      have hsame : ∀ x ∈ xs, env x = env' x :=
        fun x hx => (run_of_notMem hrun (hlater x hx)).symm
      obtain ⟨middle, hstep, hrun⟩ := run_cons.mp hrun
      obtain ⟨values, hvalues, hlength, rfl⟩ := Step.run_eq_some.mp hstep
      refine List.forall_mem_cons.mpr ⟨⟨values, ?_, ?_⟩, ih hrest hrun⟩
      · rw [← hreads env env' hsame, hvalues]
      · -- later steps leave the targets alone
        have hassigned := @forall₂_assign V env step.targets values hnodup hlength
        rw [List.forall₂_iff_zip] at hassigned ⊢
        refine ⟨hassigned.1, fun {x v} hmem => ?_⟩
        rw [← hassigned.2 hmem]
        exact run_of_notMem hrun (hdisjoint x (List.of_mem_zip hmem).1)

/-- A program ends with every solution of its steps. -/
theorem run_of_solution {steps : List (Step V)} (hordered : Ordered steps)
    (h : Solution steps env env') : run steps env = some env' := by
  induction steps generalizing env with
  | nil =>
      have hsame : env' = env := funext fun x => h.elsewhere x List.not_mem_nil
      rw [hsame]
      rfl
  | cons step steps ih =>
      obtain ⟨⟨xs, hreads, hlater⟩, -, -, hrest⟩ := hordered
      obtain ⟨values, hvalues, hheld⟩ := h.solves step List.mem_cons_self
      have hcompute : step.compute env = some values := by
        rw [hreads env env' fun x hx => (h.elsewhere x (hlater x hx)).symm, hvalues]
      have hlength := hheld.length_eq.symm
      refine run_cons.mpr ⟨_, Step.run_eq_some.mpr ⟨values, hcompute, hlength, rfl⟩, ih hrest ?_⟩
      refine ⟨fun x hx => (assign_eq hheld ?_).symm,
        fun step' hstep' => h.solves step' (List.mem_cons_of_mem _ hstep')⟩
      by_cases hmem : x ∈ step.targets
      · exact .inl hmem
      · right
        apply h.elsewhere
        unfold targets
        rw [List.flatMap_cons, List.mem_append, not_or]
        exact ⟨hmem, hx⟩

/-- **Rearrangements.**  Steps in two orders end with the same environment. -/
theorem run_perm {steps steps' : List (Step V)} (hperm : steps'.Perm steps)
    (hordered : Ordered steps) (hordered' : Ordered steps') (hrun : run steps env = some env') :
    run steps' env = some env' := by
  have h := run_solution hordered hrun
  refine run_of_solution hordered' ⟨fun x hx => h.elsewhere x fun hmem => hx ?_, fun step hstep =>
    h.solves step (hperm.mem_iff.mp hstep)⟩
  exact (hperm.flatMap_right _).mem_iff.mpr hmem

end Equations

/-! ## Two environments in step -/

section Simulation

variable {W : Type}

/-- Every value has one that represents it. -/
def Environment.Simulates (R : W → V → Prop) (table : Environment W) (env : Environment V) : Prop :=
  ∀ x v, env x = some v → ∃ w, table x = some w ∧ R w v

variable {R : W → V → Prop} {table : Environment W} {env : Environment V}

theorem Environment.Simulates.update (h : Environment.Simulates R table env) (x : Nat) {w : W}
    {v : V} (hR : R w v) :
    Environment.Simulates R (Function.update table x (some w))
      (Function.update env x (some v)) := by
  intro y u hu
  by_cases hy : y = x
  · subst hy
    rw [Function.update_self] at hu ⊢
    exact ⟨w, rfl, Option.some.inj hu ▸ hR⟩
  · rw [Function.update_of_ne hy] at hu ⊢
    exact h y u hu

/-- Assignments keep two environments in step. -/
theorem Environment.Simulates.assign (h : Environment.Simulates R table env) {ws : List W}
    {vs : List V} (hR : List.Forall₂ R ws vs) (xs : List Nat) :
    Environment.Simulates R (table.assign xs ws) (env.assign xs vs) := by
  induction hR generalizing table env xs with
  | nil => cases xs <;> exact h
  | cons hwv _ ih =>
      cases xs with
      | nil => exact h
      | cons x xs => exact ih (h.update x hwv) xs

end Simulation

end StraightLine
