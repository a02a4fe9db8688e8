import NnHal.CommandPrograms

/-!
# Threads

Threads run programs over one state.  A step lets one thread issue its next
command; a thread whose command stops is at its end.  What a thread would do
alone from here on is its solo run: a step of the thread itself leaves the end
of its solo run as it is, so an invariant about a thread can be stated about
where its solo run ends.
-/

namespace Command

variable {C : Type} {R : C → Type} {α β : Type}

/-! ## Programs whose commands are of one kind, then of another -/

/-- Every command of the program satisfies `P`, whatever the answers are. -/
def All (P : C → Prop) : Prog C R α → Prop
  | .done _ => True
  | .call c k => P c ∧ ∀ r, All P (k r)

/-- The commands satisfy `P` at first, and `Q` from some point on. -/
def AllThen (P Q : C → Prop) : Prog C R α → Prop
  | .done _ => True
  | .call c k => (P c ∧ ∀ r, AllThen P Q (k r)) ∨ All Q (.call c k)

variable {P Q : C → Prop}

theorem all_perform {c : C} (hc : P c) : All P (Prog.perform c : Prog C R (R c)) :=
  ⟨hc, fun _ => trivial⟩

theorem All.bind {p : Prog C R α} {f : α → Prog C R β} (hp : All P p)
    (hf : ∀ a, All P (f a)) : All P (p >>= f) := by
  induction p with
  | done a => exact hf a
  | call c k ih => exact ⟨hp.1, fun r => ih r (hp.2 r)⟩

theorem all_true (p : Prog C R α) : All (fun _ => True) p := by
  induction p with
  | done a => trivial
  | call c k ih => exact ⟨trivial, ih⟩

theorem All.mono {p : Prog C R α} (h : ∀ c, P c → Q c) (hp : All P p) : All Q p := by
  induction p with
  | done a => trivial
  | call c k ih => exact ⟨h c hp.1, fun r => ih r (hp.2 r)⟩

theorem All.and {p : Prog C R α} (hp : All P p) (hq : All Q p) : All (fun c => P c ∧ Q c) p := by
  induction p with
  | done a => trivial
  | call c k ih => exact ⟨⟨hp.1, hq.1⟩, fun r => ih r (hp.2 r) (hq.2 r)⟩

theorem Quiet.all {U : Type} {select : C → Option U} {p : Prog C R α} (hp : Quiet select p) :
    All (fun c => select c = none) p := by
  induction p with
  | done a => trivial
  | call c k ih =>
      cases hc : select c with
      | none => exact ⟨hc, fun r => ih r ((follows_call_none hc).mp hp r)⟩
      | some u =>
          obtain ⟨vs, hvs, -⟩ := (follows_call_some hc).mp hp
          cases hvs

/-- The commands of an expanded program are those of its parts. -/
theorem All.expand {C' : Type} {R' : C' → Type} {Q : C' → Prop} {f : (c : C) → Prog C' R' (R c)}
    (hf : ∀ c, P c → All Q (f c)) {p : Prog C R α} (hp : All P p) : All Q (p.expand f) := by
  induction p with
  | done a => trivial
  | call c k ih => exact (hf c hp.1).bind fun r => ih r (hp.2 r)

theorem AllThen.of_all {p : Prog C R α} (hp : All Q p) : AllThen P Q p := by
  cases p with
  | done a => trivial
  | call c k => exact .inr hp

/-- Commands of the first kind may be put in front. -/
theorem All.bind_then {p : Prog C R α} {f : α → Prog C R β} (hp : All P p)
    (hf : ∀ a, AllThen P Q (f a)) : AllThen P Q (p >>= f) := by
  induction p with
  | done a => exact hf a
  | call c k ih => exact .inl ⟨hp.1, fun r => ih r (hp.2 r)⟩

/-! ## Programs of one kind of command, as a class -/

/-- Every command of the program is of the kind `P`.  The kind is a parameter, so the ways to
put a program together are instances once, whatever the kind is. -/
class Only (P : C → Prop) (p : Prog C R α) : Prop where
  all : All P p

instance only_pure (a : α) : Only P (pure a : Prog C R α) := ⟨trivial⟩

instance only_bind (p : Prog C R α) (f : α → Prog C R β) [hp : Only P p]
    [hf : ∀ a, Only P (f a)] : Only P (p >>= f) :=
  ⟨hp.all.bind fun a => (hf a).all⟩

instance only_map (f : α → β) (p : Prog C R α) [hp : Only P p] : Only P (f <$> p) :=
  only_bind p (fun a => pure (f a))

instance only_ite (b : Prop) [Decidable b] (p q : Prog C R α) [hp : Only P p]
    [hq : Only P q] : Only P (if b then p else q) := by
  split
  · exact hp
  · exact hq

instance only_mapM {ι : Type} (f : ι → Prog C R α) (l : List ι) [∀ i, Only P (f i)] :
    Only P (l.mapM f) := by
  induction l with
  | nil => exact only_pure _
  | cons i l ih =>
      rw [List.mapM_cons]
      infer_instance

theorem only_perform {c : C} (hc : P c) : Only P (Prog.perform c : Prog C R (R c)) :=
  ⟨all_perform hc⟩

theorem Only.bind {p : Prog C R α} {f : α → Prog C R β} (hp : Only P p)
    (hf : ∀ a, Only P (f a)) : Only P (p >>= f) :=
  only_bind p f

/-- Past a step whose kind is known. -/
theorem Only.step {p : Prog C R α} {f : α → Prog C R β} [hp : Only P p]
    (hf : ∀ a, Only P (f a)) : Only P (p >>= f) :=
  hp.bind hf

theorem Only.ite {b : Prop} [Decidable b] {p q : Prog C R α} (hp : Only P p) (hq : Only P q) :
    Only P (if b then p else q) :=
  only_ite b p q

theorem Only.forM {ι : Type} {f : ι → Prog C R PUnit} (h : ∀ i, Only P (f i)) (l : List ι) :
    Only P (ForM.forM l f) := by
  induction l with
  | nil => exact only_pure PUnit.unit
  | cons i l ih => exact (h i).bind fun _ => ih

theorem Only.mono {p : Prog C R α} (hp : Only P p) (h : ∀ c, P c → Q c) : Only Q p :=
  ⟨hp.all.mono h⟩

/-- A kind none of whose commands is selected. -/
theorem Only.quiet {U : Type} {select : C → Option U} {p : Prog C R α} (hp : Only P p)
    (hselect : ∀ c, P c → select c = none) : Quiet select p := by
  have hall := hp.all
  clear hp
  induction p with
  | done a => rfl
  | call c k ih =>
      rcases hall with ⟨hc, hrest⟩
      exact (follows_call_none (hselect c hc)).mpr fun r => ih r (hrest r)

variable {S ε : Type} {answer : (c : C) → S → Except ε (R c × S)}

/-- The commands of a run are commands of its program. -/
theorem All.trace {p : Prog C R α} (hp : All P p) (s : S) :
    ∀ sc ∈ (exec answer p s).trace, P sc.2 := by
  induction p generalizing s with
  | done a => nofun
  | call c k ih =>
      cases h : answer c s with
      | error e =>
          rw [exec_call_error h]
          simpa using hp.1
      | ok rs =>
          rw [exec_call_ok h]
          simpa using ⟨hp.1, fun t d => ih rs.1 (hp.2 rs.1) rs.2 (t, d)⟩

/-- What the commands of a program preserve, its run preserves. -/
theorem All.exec_preserves {I : S → Prop}
    (hstep : ∀ c, P c → ∀ s r s', answer c s = .ok (r, s') → I s → I s')
    {p : Prog C R α} (hp : All P p) {s : S} (hs : I s) : I (exec answer p s).state := by
  induction p generalizing s with
  | done a => exact hs
  | call c k ih =>
      cases h : answer c s with
      | error e =>
          rw [exec_call_error h]
          exact hs
      | ok rs =>
          rw [exec_call_ok h]
          exact ih rs.1 (hp.2 rs.1) (hstep c hp.1 s rs.1 rs.2 h hs)

/-! ## Threads over one state -/

/-- The state and what each thread still has to run. -/
structure Threads (S : Type) (C : Type) (R : C → Type) (K : Type) where
  state : S
  programs : K → Prog C R Unit

namespace Threads

variable {K : Type} [DecidableEq K] {answers : K → (c : C) → S → Except ε (R c × S)}

/-- The thread issues its next command, if it has one. -/
def step (answers : K → (c : C) → S → Except ε (R c × S)) (w : Threads S C R K) (k : K) :
    Threads S C R K :=
  match w.programs k with
  | .done _ => w
  | .call c f =>
      match answers k c w.state with
      | .error _ => { w with programs := Function.update w.programs k (.done ()) }
      | .ok (r, s) => { state := s, programs := Function.update w.programs k (f r) }

/-- The next command of the thread. -/
def next (w : Threads S C R K) (k : K) : Option C :=
  match w.programs k with
  | .done _ => none
  | .call c _ => some c

/-- The state in which the thread would end alone. -/
def solo (answers : K → (c : C) → S → Except ε (R c × S)) (w : Threads S C R K) (k : K) : S :=
  (exec (answers k) (w.programs k) w.state).state

variable {w : Threads S C R K} {k : K}

theorem step_done {a : Unit} (h : w.programs k = .done a) : w.step answers k = w := by
  simp [step, h]

theorem step_error {c : C} {f : R c → Prog C R Unit} {e : ε} (h : w.programs k = .call c f)
    (he : answers k c w.state = .error e) :
    w.step answers k = { w with programs := Function.update w.programs k (.done ()) } := by
  simp [step, h, he]

theorem step_ok {c : C} {f : R c → Prog C R Unit} {r : R c} {s : S}
    (h : w.programs k = .call c f) (hr : answers k c w.state = .ok (r, s)) :
    w.step answers k = { state := s, programs := Function.update w.programs k (f r) } := by
  simp [step, h, hr]

/-- A step of a thread leaves the programs of the others as they are. -/
theorem step_programs_of_ne {j : K} (h : j ≠ k) :
    (w.step answers k).programs j = w.programs j := by
  cases hprogram : w.programs k with
  | done a => rw [step_done hprogram]
  | call c f =>
      cases hanswer : answers k c w.state with
      | error e => simp only [step_error hprogram hanswer, Function.update_of_ne h]
      | ok rs => simp only [step_ok hprogram hanswer, Function.update_of_ne h]

/-- A step of a thread leaves the end of its solo run as it is. -/
theorem solo_step_self : (w.step answers k).solo answers k = w.solo answers k := by
  cases hprogram : w.programs k with
  | done a => rw [step_done hprogram]
  | call c f =>
      cases hanswer : answers k c w.state with
      | error e =>
          simp only [step_error hprogram hanswer, solo, Function.update_self, hprogram,
            exec_call_error hanswer, exec_done]
      | ok rs =>
          simp only [step_ok hprogram hanswer, solo, Function.update_self, hprogram,
            exec_call_ok hanswer]

/-- What every answer to the thread preserves, its step preserves. -/
theorem step_preserves {I : S → Prop}
    (hstep : ∀ c r s', w.next k = some c → answers k c w.state = .ok (r, s') → I w.state → I s')
    (hs : I w.state) : I (w.step answers k).state := by
  cases hprogram : w.programs k with
  | done a =>
      rw [step_done hprogram]
      exact hs
  | call c f =>
      cases hanswer : answers k c w.state with
      | error e =>
          rw [step_error hprogram hanswer]
          exact hs
      | ok rs =>
          rw [step_ok hprogram hanswer]
          exact hstep c rs.1 rs.2 (by simp [next, hprogram]) hanswer hs

/-- What is left of a thread after a step has no other commands. -/
theorem all_step (h : All P (w.programs k)) : All P ((w.step answers k).programs k) := by
  cases hprogram : w.programs k with
  | done a =>
      rw [step_done hprogram]
      exact h
  | call c f =>
      rw [hprogram] at h
      cases hanswer : answers k c w.state with
      | error e =>
          simp only [step_error hprogram hanswer, Function.update_self]
          trivial
      | ok rs =>
          simp only [step_ok hprogram hanswer, Function.update_self]
          exact h.2 rs.1

omit [DecidableEq K] in
theorem next_of_all {c : C} (h : All P (w.programs k)) (hc : w.next k = some c) : P c := by
  cases hprogram : w.programs k with
  | done a => simp [next, hprogram] at hc
  | call c' f =>
      obtain rfl : c' = c := by simpa [next, hprogram] using hc
      rw [hprogram] at h
      exact h.1

omit [DecidableEq K] in
/-- The next command is of one of the two kinds, and all the rest is of the second
where this one is not of the first. -/
theorem next_of_allThen {c : C} (h : AllThen P Q (w.programs k)) (hc : w.next k = some c) :
    P c ∨ Q c ∧ All Q (w.programs k) := by
  cases hprogram : w.programs k with
  | done a => simp [next, hprogram] at hc
  | call c' f =>
      obtain rfl : c' = c := by simpa [next, hprogram] using hc
      rw [hprogram] at h
      exact h.imp And.left fun hall => ⟨hall.1, hall⟩

/-- What is left of a thread after a step is of the second kind if it was, and
otherwise of the first kind, then of the second. -/
theorem allThen_step (h : AllThen P Q (w.programs k)) :
    AllThen P Q ((w.step answers k).programs k) := by
  cases hprogram : w.programs k with
  | done a =>
      rw [step_done hprogram]
      exact h
  | call c f =>
      rw [hprogram] at h
      cases hanswer : answers k c w.state with
      | error e =>
          simp only [step_error hprogram hanswer, Function.update_self]
          trivial
      | ok rs =>
          simp only [step_ok hprogram hanswer, Function.update_self]
          rcases h with ⟨-, hrest⟩ | hall
          · exact hrest rs.1
          · exact AllThen.of_all (hall.2 rs.1)

end Threads

end Command
