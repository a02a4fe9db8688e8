import NnHal.Runs

/-!
# Programs that issue commands

A program is a tree: a leaf carries the result, a node issues a command and
goes on with the answer.  What the commands mean is left open, so a statement
about the tree holds whatever answers them, and one program can be run
against several environments.

Three things are said about a program here.

* `Follows select p us`: whatever the answers are, the commands of `p` that
  `select` picks are, in order, exactly `us`.  The rules (`Follows.bind`,
  `Quiet.bind`, `follows_perform_bind`, ...) walk through a program in the
  order in which it is written.
* `Yields p Q`: every result of `p` satisfies `Q`.
* `exec answer p s`: the run of `p` in an environment that answers a command
  or stops it, with the trace of the commands issued and the state in which
  each was issued.

`Follows.trace_initial` and `Follows.trace_eq` carry the first to the third,
and `exec_checked` replays the commands issued as a run of their own.
-/

namespace Command

open Runs

/-- A program with results in `α` that issues commands `c : C`, each answered
by a value of `R c`. -/
inductive Prog (C : Type) (R : C → Type) (α : Type) : Type
  | done (a : α)
  | call (c : C) (k : R c → Prog C R α)

variable {C : Type} {R : C → Type} {α β γ : Type}

namespace Prog

/-- Run `p`, then `f` on its result. -/
def bind : Prog C R α → (α → Prog C R β) → Prog C R β
  | .done a, f => f a
  | .call c k, f => .call c fun r => (k r).bind f

instance : Monad (Prog C R) where
  pure := .done
  bind := bind

@[simp]
theorem pure_eq_done (a : α) : (pure a : Prog C R α) = .done a := rfl

@[simp]
theorem done_bind (a : α) (f : α → Prog C R β) : Prog.done a >>= f = f a := rfl

@[simp]
theorem call_bind (c : C) (k : R c → Prog C R α) (f : α → Prog C R β) :
    Prog.call c k >>= f = .call c fun r => k r >>= f := rfl

theorem bind_done (p : Prog C R α) : p >>= Prog.done = p := by
  induction p with
  | done a => rfl
  | call c k ih => simp [ih]

theorem bind_assoc (p : Prog C R α) (f : α → Prog C R β) (g : β → Prog C R γ) :
    p >>= f >>= g = p >>= fun a => f a >>= g := by
  induction p with
  | done a => rfl
  | call c k ih => simp [ih]

instance : LawfulMonad (Prog C R) :=
  LawfulMonad.mk' _ bind_done done_bind bind_assoc

/-- The program that issues one command and returns the answer. -/
def perform (c : C) : Prog C R (R c) := .call c .done

end Prog

/-! ## Programs in finer commands -/

namespace Prog

variable {C' : Type} {R' : C' → Type}

/-- The program with each command replaced by a program of finer commands. -/
def expand (f : (c : C) → Prog C' R' (R c)) : Prog C R α → Prog C' R' α
  | .done a => .done a
  | .call c k => f c >>= fun r => (k r).expand f

@[simp]
theorem expand_done (f : (c : C) → Prog C' R' (R c)) (a : α) :
    (Prog.done a : Prog C R α).expand f = .done a := rfl

theorem expand_bind (f : (c : C) → Prog C' R' (R c)) (p : Prog C R α) (g : α → Prog C R β) :
    (p >>= g).expand f = p.expand f >>= fun a => (g a).expand f := by
  induction p with
  | done a => rfl
  | call c k ih =>
      simp only [call_bind, expand, ih]
      rw [bind_assoc]

theorem expand_perform (f : (c : C) → Prog C' R' (R c)) (c : C) :
    (perform c : Prog C R (R c)).expand f = f c := by
  simp only [perform, expand]
  exact bind_done (f c)

end Prog

/-! ## The commands a program issues -/

section Follows

variable {U : Type} {select : C → Option U}

/-- Whatever the answers are, the commands of the program that `select` picks
are `us`, in this order. -/
def Follows (select : C → Option U) : Prog C R α → List U → Prop
  | .done _, us => us = []
  | .call c k, us =>
      match select c with
      | none => ∀ r, Follows select (k r) us
      | some u => ∃ vs, us = u :: vs ∧ ∀ r, Follows select (k r) vs

/-- A quiet program issues no selected command. -/
abbrev Quiet (select : C → Option U) (p : Prog C R α) : Prop :=
  Follows select p []

@[simp]
theorem follows_done {a : α} {us : List U} :
    Follows select (Prog.done a : Prog C R α) us ↔ us = [] := Iff.rfl

theorem follows_call_none {c : C} {k : R c → Prog C R α} {us : List U}
    (hc : select c = none) :
    Follows select (.call c k) us ↔ ∀ r, Follows select (k r) us := by
  simp [Follows, hc]

theorem follows_call_some {c : C} {k : R c → Prog C R α} {u : U} {us : List U}
    (hc : select c = some u) :
    Follows select (.call c k) us ↔
      ∃ vs, us = u :: vs ∧ ∀ r, Follows select (k r) vs := by
  simp [Follows, hc]

theorem quiet_pure (a : α) : Quiet select (pure a : Prog C R α) := rfl

theorem quiet_perform {c : C} (hc : select c = none) :
    Quiet select (Prog.perform c : Prog C R (R c)) := by
  simp [Prog.perform, follows_call_none hc]

theorem follows_perform {c : C} {u : U} (hc : select c = some u) :
    Follows select (Prog.perform c : Prog C R (R c)) [u] := by
  simp [Prog.perform, follows_call_some hc]

/-- Sequencing appends the selected commands. -/
theorem Follows.bind {p : Prog C R α} {f : α → Prog C R β} {us vs : List U}
    (hp : Follows select p us) (hf : ∀ a, Follows select (f a) vs) :
    Follows select (p >>= f) (us ++ vs) := by
  induction p generalizing us with
  | done a =>
      obtain rfl : us = [] := hp
      exact hf a
  | call c k ih =>
      cases hc : select c with
      | none =>
          rw [Prog.call_bind, follows_call_none hc]
          exact fun r => ih r ((follows_call_none hc).mp hp r)
      | some u =>
          obtain ⟨ws, rfl, hk⟩ := (follows_call_some hc).mp hp
          rw [Prog.call_bind, follows_call_some hc]
          exact ⟨ws ++ vs, rfl, fun r => ih r (hk r)⟩

/-- What is quiet for one selection is quiet for a narrower one. -/
theorem Quiet.mono {V : Type} {select' : C → Option V} {p : Prog C R α}
    (h : ∀ c, select c = none → select' c = none) (hp : Quiet select p) : Quiet select' p := by
  induction p with
  | done a => rfl
  | call c k ih =>
      cases hc : select c with
      | none =>
          have hk := (follows_call_none hc).mp hp
          exact (follows_call_none (h c hc)).mpr fun r => ih r (hk r)
      | some u =>
          obtain ⟨vs, hvs, -⟩ := (follows_call_some hc).mp hp
          cases hvs

/-- A quiet program in front adds nothing. -/
theorem Quiet.bind {p : Prog C R α} {f : α → Prog C R β} {us : List U}
    (hp : Quiet select p) (hf : ∀ a, Follows select (f a) us) :
    Follows select (p >>= f) us :=
  Follows.bind hp hf

/-- A quiet program behind adds nothing. -/
theorem Follows.bind_quiet {p : Prog C R α} {f : α → Prog C R β} {us : List U}
    (hp : Follows select p us) (hf : ∀ a, Quiet select (f a)) :
    Follows select (p >>= f) us := by
  simpa using hp.bind hf

theorem follows_perform_bind {c : C} {f : R c → Prog C R β} {u : U}
    {us : List U} (hc : select c = some u) (hf : ∀ r, Follows select (f r) us) :
    Follows select (Prog.perform c >>= f) (u :: us) :=
  (follows_perform hc).bind hf

theorem Follows.map {p : Prog C R α} {f : α → β} {us : List U}
    (hp : Follows select p us) : Follows select (f <$> p) us := by
  rw [map_eq_pure_bind]
  exact hp.bind_quiet fun a => quiet_pure (f a)

theorem follows_ite {b : Prop} {_ : Decidable b} {p q : Prog C R α} {us vs : List U}
    (hp : b → Follows select p us) (hq : ¬b → Follows select q vs) :
    Follows select (if b then p else q) (if b then us else vs) := by
  split <;> simp_all

theorem quiet_ite {b : Prop} {_ : Decidable b} {p q : Prog C R α}
    (hp : Quiet select p) (hq : Quiet select q) :
    Quiet select (if b then p else q) := by
  split <;> assumption

/-- The selected commands of a loop are those of its rounds, one after the
other. -/
theorem Follows.mapM {ι : Type} {f : ι → Prog C R α} {g : ι → List U} {l : List ι}
    (h : ∀ i ∈ l, Follows select (f i) (g i)) :
    Follows select (l.mapM f) (l.flatMap g) := by
  induction l with
  | nil => simp
  | cons i l ih =>
      have hl := ih fun j hj => h j (List.mem_cons_of_mem _ hj)
      rw [List.mapM_cons, List.flatMap_cons]
      apply (h i List.mem_cons_self).bind
      intro a
      exact hl.bind_quiet fun as => quiet_pure (a :: as)

theorem Follows.forM {ι : Type} {f : ι → Prog C R PUnit} {g : ι → List U}
    (h : ∀ i, Follows select (f i) (g i)) (l : List ι) :
    Follows select (forM l f) (l.flatMap g) := by
  induction l with
  | nil => simp
  | cons i l ih =>
      rw [List.forM_cons, List.flatMap_cons]
      exact (h i).bind fun _ => ih

end Follows

/-! ## The results of a program -/

/-- Every result of the program satisfies `Q`. -/
def Yields (Q : α → Prop) : Prog C R α → Prop
  | .done a => Q a
  | .call _ k => ∀ r, Yields Q (k r)

theorem yields_true (p : Prog C R α) : Yields (fun _ => True) p := by
  induction p with
  | done a => trivial
  | call c k ih => exact ih

theorem Yields.bind {p : Prog C R α} {f : α → Prog C R β} {Q : α → Prop}
    {P : β → Prop} (hp : Yields Q p) (hf : ∀ a, Q a → Yields P (f a)) :
    Yields P (p >>= f) := by
  induction p with
  | done a => exact hf a hp
  | call c k ih => exact fun r => ih r (hp r)

/-- Two continuations that agree on what the program returns. -/
theorem Yields.bind_congr {p : Prog C R α} {f g : α → Prog C R β} {Q : α → Prop}
    (hp : Yields Q p) (hfg : ∀ a, Q a → f a = g a) : p >>= f = p >>= g := by
  induction p with
  | done a => exact hfg a hp
  | call c k ih =>
      simp only [Prog.call_bind, Prog.call.injEq, heq_eq_eq, true_and]
      funext r
      exact ih r (hp r)

/-- Where the continuation needs to know what the first program returned. -/
theorem Follows.bind_yields {U : Type} {select : C → Option U}
    {p : Prog C R α} {f : α → Prog C R β} {Q : α → Prop} {us vs : List U}
    (hp : Follows select p us) (hy : Yields Q p)
    (hf : ∀ a, Q a → Follows select (f a) vs) :
    Follows select (p >>= f) (us ++ vs) := by
  induction p generalizing us with
  | done a =>
      obtain rfl : us = [] := hp
      exact hf a hy
  | call c k ih =>
      cases hc : select c with
      | none =>
          rw [Prog.call_bind, follows_call_none hc]
          exact fun r => ih r ((follows_call_none hc).mp hp r) (hy r)
      | some u =>
          obtain ⟨ws, rfl, hk⟩ := (follows_call_some hc).mp hp
          rw [Prog.call_bind, follows_call_some hc]
          exact ⟨ws ++ vs, rfl, fun r => ih r (hk r) (hy r)⟩

theorem Quiet.bind_yields {U : Type} {select : C → Option U} {p : Prog C R α}
    {f : α → Prog C R β} {Q : α → Prop} {us : List U} (hp : Quiet select p) (hy : Yields Q p)
    (hf : ∀ a, Q a → Follows select (f a) us) : Follows select (p >>= f) us :=
  Follows.bind_yields hp hy hf

/-! ## Commands and results together -/

section Issues

variable {U : Type} {select : C → Option U} {p : Prog C R α} {us vs : List U} {Q : α → Prop}

/-- The selected commands of the program are `us`, and every result satisfies
`Q`. -/
structure Issues (select : C → Option U) (p : Prog C R α) (us : List U) (Q : α → Prop) :
    Prop where
  follows : Follows select p us
  yields : Yields Q p

theorem issues_pure {a : α} (h : Q a) : Issues select (pure a : Prog C R α) [] Q :=
  ⟨quiet_pure a, h⟩

/-- A program of whose result nothing is asked. -/
theorem Follows.issues (hp : Follows select p us) : Issues select p us fun _ => True :=
  ⟨hp, yields_true p⟩

theorem Issues.bind {f : α → Prog C R β} {P : β → Prop} (hp : Issues select p us Q)
    (hf : ∀ a, Q a → Issues select (f a) vs P) : Issues select (p >>= f) (us ++ vs) P := by
  constructor
  · exact hp.follows.bind_yields hp.yields fun a ha => (hf a ha).follows
  · exact hp.yields.bind fun a ha => (hf a ha).yields

/-- A quiet program whose result the rest depends on. -/
theorem Issues.step {f : α → Prog C R β} {P : β → Prop} (hp : Issues select p [] Q)
    (hf : ∀ a, Q a → Issues select (f a) us P) : Issues select (p >>= f) us P :=
  hp.bind hf

/-- A quiet program whose result does not matter. -/
theorem Issues.pass {f : α → Prog C R β} {P : β → Prop} (hp : Quiet select p)
    (hf : ∀ a, Issues select (f a) us P) : Issues select (p >>= f) us P :=
  hp.issues.step fun a _ => hf a

theorem issues_ite {b : Prop} {_ : Decidable b} {q : Prog C R α}
    (hp : b → Issues select p us Q) (hq : ¬b → Issues select q vs Q) :
    Issues select (if b then p else q) (if b then us else vs) Q := by
  by_cases hb : b
  · simpa only [hb, if_true] using hp hb
  · simpa only [hb, if_false] using hq hb

end Issues

/-! ## Running a program -/

/-- What a run leaves: its result or the reason it stopped, the final state,
and every command issued with the state it was issued in. -/
structure Ran (S C ε α : Type) where
  outcome : Except ε α
  state : S
  trace : List (S × C)

variable {S ε : Type} {answer : (c : C) → S → Except ε (R c × S)}

/-- Run a program in an environment that answers each command, or stops. -/
def exec (answer : (c : C) → S → Except ε (R c × S)) :
    Prog C R α → S → Ran S C ε α
  | .done a, s => ⟨.ok a, s, []⟩
  | .call c k, s =>
      match answer c s with
      | .error e => ⟨.error e, s, [(s, c)]⟩
      | .ok (r, s') =>
          let rest := exec answer (k r) s'
          ⟨rest.outcome, rest.state, (s, c) :: rest.trace⟩

/-- The commands of a run that `select` picks. -/
def Ran.selected {U : Type} (select : C → Option U) (r : Ran S C ε α) : List U :=
  r.trace.filterMap fun sc => select sc.2

theorem exec_done (a : α) (s : S) :
    exec answer (.done a) s = ⟨.ok a, s, []⟩ := rfl

theorem exec_call_error {c : C} {k : R c → Prog C R α} {s : S} {e : ε}
    (h : answer c s = .error e) :
    exec answer (.call c k) s = ⟨.error e, s, [(s, c)]⟩ := by
  simp [exec, h]

theorem exec_call_ok {c : C} {k : R c → Prog C R α} {s s' : S} {r : R c}
    (h : answer c s = .ok (r, s')) :
    exec answer (.call c k) s =
      ⟨(exec answer (k r) s').outcome, (exec answer (k r) s').state,
        (s, c) :: (exec answer (k r) s').trace⟩ := by
  simp [exec, h]

/-- A program that begins with a command. -/
theorem exec_perform_bind {c : C} {f : R c → Prog C R β} {s s' : S} {r : R c}
    (h : answer c s = .ok (r, s')) :
    exec answer (Prog.perform c >>= f) s =
      ⟨(exec answer (f r) s').outcome, (exec answer (f r) s').state,
        (s, c) :: (exec answer (f r) s').trace⟩ :=
  exec_call_ok h

theorem exec_perform_bind_error {c : C} {f : R c → Prog C R β} {s : S} {e : ε}
    (h : answer c s = .error e) :
    exec answer (Prog.perform c >>= f) s = ⟨.error e, s, [(s, c)]⟩ :=
  exec_call_error h

/-- A run of a sequence is the run of its first part, continued where that
part returned. -/
theorem exec_bind (p : Prog C R α) (f : α → Prog C R β) (s : S) :
    exec answer (p >>= f) s =
      match (exec answer p s).outcome with
      | .error e => ⟨.error e, (exec answer p s).state, (exec answer p s).trace⟩
      | .ok a =>
          let rest := exec answer (f a) (exec answer p s).state
          ⟨rest.outcome, rest.state, (exec answer p s).trace ++ rest.trace⟩ := by
  induction p generalizing s with
  | done a => rfl
  | call c k ih =>
      rw [Prog.call_bind]
      cases h : answer c s with
      | error e => simp [exec_call_error h]
      | ok rs =>
          rcases rs with ⟨r, s'⟩
          rw [exec_call_ok h, exec_call_ok h, ih]
          cases (exec answer (k r) s').outcome <;> rfl

/-- The run, with a trace in front. -/
def Ran.after (front : List (S × C)) (run : Ran S C ε α) : Ran S C ε α :=
  { run with trace := front ++ run.trace }

@[simp]
theorem Ran.outcome_after (front : List (S × C)) (run : Ran S C ε α) :
    (run.after front).outcome = run.outcome := rfl

@[simp]
theorem Ran.state_after (front : List (S × C)) (run : Ran S C ε α) :
    (run.after front).state = run.state := rfl

@[simp]
theorem Ran.trace_after (front : List (S × C)) (run : Ran S C ε α) :
    (run.after front).trace = front ++ run.trace := rfl

@[simp]
theorem Ran.selected_after {U : Type} (select : C → Option U) (front : List (S × C))
    (run : Ran S C ε α) :
    (run.after front).selected select =
      front.filterMap (fun sc => select sc.2) ++ run.selected select :=
  List.filterMap_append

/-- Where the first part of a sequence returns, the second one follows. -/
theorem exec_bind_ok {p : Prog C R α} {f : α → Prog C R β} {s : S} {a : α}
    (h : (exec answer p s).outcome = .ok a) :
    exec answer (p >>= f) s =
      (exec answer (f a) (exec answer p s).state).after (exec answer p s).trace := by
  rw [exec_bind, h]
  rfl

/-- Where it does not, the sequence ends there. -/
theorem exec_bind_error {p : Prog C R α} {f : α → Prog C R β} {s : S} {e : ε}
    (h : (exec answer p s).outcome = .error e) :
    exec answer (p >>= f) s =
      ⟨.error e, (exec answer p s).state, (exec answer p s).trace⟩ := by
  rw [exec_bind, h]

/-- The state after a command; one that stops leaves the state as it is. -/
def next (answer : (c : C) → S → Except ε (R c × S)) (s : S) (c : C) : S :=
  match answer c s with
  | .error _ => s
  | .ok (_, s') => s'

theorem next_error {c : C} {s : S} {e : ε} (h : answer c s = .error e) : next answer s c = s := by
  simp [next, h]

theorem next_ok {c : C} {s s' : S} {r : R c} (h : answer c s = .ok (r, s')) :
    next answer s c = s' := by
  simp [next, h]

/-- A run ends where the commands it issued lead, one after the other. -/
theorem exec_state_eq (p : Prog C R α) (s : S) :
    (exec answer p s).state =
      ((exec answer p s).trace.map Prod.snd).foldl (next answer) s := by
  induction p generalizing s with
  | done a => rfl
  | call c k ih =>
      cases h : answer c s with
      | error e =>
          rw [exec_call_error h]
          exact (next_error h).symm
      | ok rs =>
          rw [exec_call_ok h]
          simp only [List.map_cons, List.foldl_cons, next_ok h]
          exact ih rs.1 rs.2

/-- **Preservation.**  What every answer preserves, a run preserves. -/
theorem exec_preserves {I : S → Prop}
    (hstep : ∀ c s r s', answer c s = .ok (r, s') → I s → I s')
    (p : Prog C R α) {s : S} (hs : I s) : I (exec answer p s).state := by
  induction p generalizing s with
  | done a => exact hs
  | call c k ih =>
      cases h : answer c s with
      | error e =>
          rw [exec_call_error h]
          exact hs
      | ok rs =>
          rw [exec_call_ok h]
          exact ih rs.1 (hstep c s rs.1 rs.2 h hs)

/-- **Expansion.**  Where the finer programs do what the commands do, an expanded
program does what the program does. -/
theorem exec_expand {C' : Type} {R' : C' → Type} {S' : Type}
    {answer' : (c : C') → S' → Except ε (R' c × S')} {f : (c : C) → Prog C' R' (R c)}
    {view : S' → S}
    (hok : ∀ c t r s, answer c (view t) = .ok (r, s) →
      (exec answer' (f c) t).outcome = .ok r ∧ view (exec answer' (f c) t).state = s)
    (herror : ∀ c t e, answer c (view t) = .error e →
      (exec answer' (f c) t).outcome = .error e ∧ view (exec answer' (f c) t).state = view t)
    (p : Prog C R α) (t : S') :
    (exec answer' (p.expand f) t).outcome = (exec answer p (view t)).outcome ∧
      view (exec answer' (p.expand f) t).state = (exec answer p (view t)).state := by
  induction p generalizing t with
  | done a => exact ⟨rfl, rfl⟩
  | call c k ih =>
      simp only [Prog.expand]
      cases h : answer c (view t) with
      | error e =>
          obtain ⟨houtcome, hstate⟩ := herror c t e h
          rw [exec_call_error h, exec_bind_error houtcome]
          exact ⟨rfl, hstate⟩
      | ok rs =>
          obtain ⟨houtcome, hstate⟩ := hok c t rs.1 rs.2 h
          have hrest := ih rs.1 (exec answer' (f c) t).state
          rw [hstate] at hrest
          rw [exec_call_ok h, exec_bind_ok houtcome]
          exact hrest

/-- What every result satisfies, the result of a run satisfies. -/
theorem Yields.outcome {Q : α → Prop} {p : Prog C R α} (hp : Yields Q p) {s : S} {a : α}
    (ha : (exec answer p s).outcome = .ok a) : Q a := by
  induction p generalizing s with
  | done b =>
      cases ha
      exact hp
  | call c k ih =>
      cases h : answer c s with
      | error e => simp [exec_call_error h] at ha
      | ok rs =>
          rw [exec_call_ok h] at ha
          exact ih rs.1 (hp rs.1) ha

/-- A loop whose rounds return and leave the state unchanged. -/
theorem exec_mapM_of_unchanged {ι : Type} {f : ι → Prog C R β} {g : ι → β} {l : List ι} {s : S}
    (h : ∀ i ∈ l, (exec answer (f i) s).outcome = .ok (g i) ∧ (exec answer (f i) s).state = s) :
    (exec answer (l.mapM f) s).outcome = .ok (l.map g) := by
  induction l with
  | nil => rfl
  | cons i l ih =>
      obtain ⟨hi, hs⟩ := h i List.mem_cons_self
      have hl := ih fun j hj => h j (List.mem_cons_of_mem _ hj)
      rw [List.mapM_cons, exec_bind, hi]
      simp only [hs]
      rw [exec_bind, hl]
      rfl

section Traces

variable {U : Type} {select : C → Option U}

/-- A run that returns issued exactly the commands its program follows. -/
theorem Follows.trace_eq {p : Prog C R α} {us : List U}
    (hp : Follows select p us) {s : S} {a : α}
    (ha : (exec answer p s).outcome = .ok a) :
    (exec answer p s).selected select = us := by
  induction p generalizing us s with
  | done b => simp_all [exec, Ran.selected]
  | call c k ih =>
      cases h : answer c s with
      | error e => simp [exec_call_error h] at ha
      | ok rs =>
          rcases rs with ⟨r, s'⟩
          rw [exec_call_ok h] at ha ⊢
          cases hc : select c with
          | none =>
              have := ih r ((follows_call_none hc).mp hp r) ha
              simpa [Ran.selected, hc] using this
          | some u =>
              obtain ⟨vs, rfl, hk⟩ := (follows_call_some hc).mp hp
              have := ih r (hk r) ha
              simpa [Ran.selected, hc] using this

/-- A run that stops has issued a prefix of them. -/
theorem Follows.trace_initial {p : Prog C R α} {us : List U}
    (hp : Follows select p us) (s : S) :
    (exec answer p s).selected select <+: us := by
  induction p generalizing us s with
  | done b => simp_all [exec, Ran.selected]
  | call c k ih =>
      cases hc : select c with
      | none =>
          cases h : answer c s with
          | error e => simp [exec_call_error h, Ran.selected, hc]
          | ok rs =>
              rw [exec_call_ok h]
              have := ih rs.1 ((follows_call_none hc).mp hp rs.1) rs.2
              simpa [Ran.selected, hc] using this
      | some u =>
          obtain ⟨vs, rfl, hk⟩ := (follows_call_some hc).mp hp
          cases h : answer c s with
          | error e => simp [exec_call_error h, Ran.selected, hc]
          | ok rs =>
              rw [exec_call_ok h]
              have := ih rs.1 (hk rs.1) rs.2
              simpa [Ran.selected, hc, List.prefix_cons_inj] using this

/-- A quiet program leaves no selected command in its trace. -/
theorem Quiet.selected_nil {p : Prog C R α} (hp : Quiet select p)
    (answer : (c : C) → S → Except ε (R c × S)) (s : S) :
    (exec answer p s).selected select = [] :=
  List.prefix_nil.mp (hp.trace_initial s)

theorem Quiet.trace_none {p : Prog C R α} (hp : Quiet select p) (s : S) :
    ∀ sc ∈ (exec answer p s).trace, select sc.2 = none :=
  List.filterMap_eq_nil_iff.mp (hp.selected_nil answer s)

/-- Every selected command of the run satisfies `P` in the state it meets. -/
def Ran.Meets (select : C → Option U) (P : S → U → Prop) (run : Ran S C ε α) : Prop :=
  ∀ sc ∈ run.trace, ∀ u, select sc.2 = some u → P sc.1 u

theorem Quiet.meets {P : S → U → Prop} {p : Prog C R α} (hp : Quiet select p) (s : S) :
    (exec answer p s).Meets select P := by
  intro sc hsc u hu
  have hnone := hp.trace_none s sc hsc
  rw [hu] at hnone
  cases hnone

/-- In a sequence, the selected commands of both parts do. -/
theorem meets_bind {P : S → U → Prop} {p : Prog C R α} {f : α → Prog C R β} {s : S} :
    (exec answer (p >>= f) s).Meets select P ↔
      (exec answer p s).Meets select P ∧
        ∀ a, (exec answer p s).outcome = .ok a →
          (exec answer (f a) (exec answer p s).state).Meets select P := by
  cases h : (exec answer p s).outcome with
  | error e =>
      rw [exec_bind_error h]
      exact ⟨fun hfront => ⟨hfront, nofun⟩, And.left⟩
  | ok a =>
      rw [exec_bind_ok h]
      simp only [Ran.Meets, Ran.trace_after, List.mem_append, or_imp, forall_and, Except.ok.injEq,
        forall_eq']

theorem meets_perform_bind {P : S → U → Prop} {c : C} {f : R c → Prog C R β} {s s' : S} {r : R c}
    (h : answer c s = .ok (r, s')) :
    (exec answer (Prog.perform c >>= f) s).Meets select P ↔
      (∀ u, select c = some u → P s u) ∧ (exec answer (f r) s').Meets select P := by
  rw [exec_perform_bind h]
  simp only [Ran.Meets, List.forall_mem_cons]

theorem meets_perform_bind_error {P : S → U → Prop} {c : C} {f : R c → Prog C R β} {s : S} {e : ε}
    (h : answer c s = .error e) :
    (exec answer (Prog.perform c >>= f) s).Meets select P ↔ ∀ u, select c = some u → P s u := by
  rw [exec_perform_bind_error h]
  simp only [Ran.Meets, List.mem_singleton, forall_eq]

/-- A quiet first part leaves the commands of the second. -/
theorem Quiet.meets_bind_ok {P : S → U → Prop} {p : Prog C R α} {f : α → Prog C R β} {s : S}
    (hp : Quiet select p) {a : α} (h : (exec answer p s).outcome = .ok a) :
    (exec answer (p >>= f) s).Meets select P ↔
      (exec answer (f a) (exec answer p s).state).Meets select P := by
  rw [meets_bind, h]
  simp only [Except.ok.injEq, forall_eq', hp.meets s, true_and]

/-- A quiet second part leaves those of the first. -/
theorem meets_bind_quiet {P : S → U → Prop} {p : Prog C R α} {f : α → Prog C R β} {s : S}
    (hf : ∀ a, Quiet select (f a)) :
    (exec answer (p >>= f) s).Meets select P ↔ (exec answer p s).Meets select P := by
  rw [meets_bind]
  exact and_iff_left fun a _ => (hf a).meets _

/-- Where the environment refuses the selected commands that stop, no selected
command follows one of them. -/
theorem Follows.trace_upto {stops : U → Bool} {p : Prog C R α} {us : List U}
    (hp : Follows select p us)
    (hrefuse : ∀ c u, select c = some u → stops u → ∀ s, ∃ e, answer c s = .error e) (s : S) :
    (exec answer p s).selected select <+: upto stops us := by
  induction p generalizing us s with
  | done b => simp_all [exec, Ran.selected, upto]
  | call c k ih =>
      cases hc : select c with
      | none =>
          have hk := (follows_call_none hc).mp hp
          cases h : answer c s with
          | error e => simp [exec_call_error h, Ran.selected, hc]
          | ok rs =>
              rw [exec_call_ok h]
              have hrest := ih rs.1 (hk rs.1) rs.2
              simpa [Ran.selected, hc] using hrest
      | some u =>
          obtain ⟨vs, rfl, hk⟩ := (follows_call_some hc).mp hp
          by_cases hu : stops u = true
          · obtain ⟨e, he⟩ := hrefuse c u hc hu s
            simp [exec_call_error he, Ran.selected, hc, upto, hu]
          · cases h : answer c s with
            | error e => simp [exec_call_error h, Ran.selected, hc, upto, hu]
            | ok rs =>
                rw [exec_call_ok h]
                have hrest := ih rs.1 (hk rs.1) rs.2
                simpa [Ran.selected, hc, upto, hu, List.prefix_cons_inj] using hrest

/-- Where it refuses nothing else, the run issues all of them. -/
theorem Follows.trace_eq_upto {stops : U → Bool} {p : Prog C R α} {us : List U}
    (hp : Follows select p us)
    (hrefuse : ∀ c u, select c = some u → stops u → ∀ s, ∃ e, answer c s = .error e)
    (haccept : ∀ c, (∀ u, select c = some u → stops u = false) → ∀ s, ∃ rs, answer c s = .ok rs)
    (s : S) : (exec answer p s).selected select = upto stops us := by
  induction p generalizing us s with
  | done b => simp_all [exec, Ran.selected, upto]
  | call c k ih =>
      cases hc : select c with
      | none =>
          have hk := (follows_call_none hc).mp hp
          obtain ⟨rs, h⟩ := haccept c (by simp [hc]) s
          rw [exec_call_ok h]
          have hrest := ih rs.1 (hk rs.1) rs.2
          simpa [Ran.selected, hc] using hrest
      | some u =>
          obtain ⟨vs, rfl, hk⟩ := (follows_call_some hc).mp hp
          by_cases hu : stops u = true
          · obtain ⟨e, he⟩ := hrefuse c u hc hu s
            simp [exec_call_error he, Ran.selected, hc, upto, hu]
          · obtain ⟨rs, h⟩ := haccept c (by simpa [hc] using hu) s
            rw [exec_call_ok h]
            have hrest := ih rs.1 (hk rs.1) rs.2
            simpa [Ran.selected, hc, upto, hu] using hrest

/-- A program whose selected commands include one that stops does not return. -/
theorem Follows.goesOn {stops : U → Bool} {p : Prog C R α} {us : List U}
    (hp : Follows select p us)
    (hrefuse : ∀ c u, select c = some u → stops u → ∀ s, ∃ e, answer c s = .error e) {s : S} {a : α}
    (ha : (exec answer p s).outcome = .ok a) : us.any stops = false := by
  induction p generalizing us s with
  | done b =>
      obtain rfl : us = [] := hp
      rfl
  | call c k ih =>
      cases h : answer c s with
      | error e =>
          rw [exec_call_error h] at ha
          cases ha
      | ok rs =>
          rw [exec_call_ok h] at ha
          cases hc : select c with
          | none => exact ih rs.1 ((follows_call_none hc).mp hp rs.1) ha
          | some u =>
              obtain ⟨vs, rfl, hk⟩ := (follows_call_some hc).mp hp
              rw [List.any_cons, ih rs.1 (hk rs.1) ha, Bool.or_false, ← Bool.not_eq_true]
              intro hu
              obtain ⟨e, he⟩ := hrefuse c u hc hu s
              rw [h] at he
              cases he

/-- **Running through.**  Where the program's selected commands are harmless,
and the environment answers every command that is not harmful without a change
of the state, the run returns, ends where it began and issues all of them. -/
theorem Follows.runs_through {harmless : U → Prop} {p : Prog C R α} {us : List U}
    (hp : Follows select p us) (hus : ∀ u ∈ us, harmless u)
    (hanswer : ∀ c s, (∀ u, select c = some u → harmless u) → ∃ r, answer c s = .ok (r, s))
    (s : S) :
    (∃ a, (exec answer p s).outcome = .ok a) ∧ (exec answer p s).state = s ∧
      (exec answer p s).selected select = us := by
  induction p generalizing us with
  | done a => exact ⟨⟨a, rfl⟩, rfl, hp.symm⟩
  | call c k ih =>
      cases hc : select c with
      | none =>
          obtain ⟨r, hr⟩ := hanswer c s (by simp [hc])
          obtain ⟨hreturns, hstate, htrace⟩ := ih r ((follows_call_none hc).mp hp r) hus
          rw [exec_call_ok hr]
          exact ⟨hreturns, hstate, by simpa [Ran.selected, hc] using htrace⟩
      | some u =>
          obtain ⟨vs, rfl, hk⟩ := (follows_call_some hc).mp hp
          obtain ⟨r, hr⟩ := hanswer c s (by simpa [hc] using hus u List.mem_cons_self)
          obtain ⟨hreturns, hstate, htrace⟩ :=
            ih r (hk r) fun v hv => hus v (List.mem_cons_of_mem _ hv)
          rw [exec_call_ok hr]
          exact ⟨hreturns, hstate, by simpa [Ran.selected, hc] using htrace⟩

end Traces

/-! ## Checking each command against the state it meets -/

section Checked

variable {U V : Type} {select : C → Option U} {view : S → V}
variable {allowed : V → U → Prop} {advance : V → U → V}

/-- **Replay.**  When the selected commands alone advance the view of the
state, each meets an allowed view in the run exactly when the list of them is
checked from the initial view. -/
theorem exec_checked
    (hview : ∀ c s r s', answer c s = .ok (r, s') →
      view s' = (select c).elim (view s) (advance (view s)))
    (p : Prog C R α) (s : S) :
    (∀ sc ∈ (exec answer p s).trace, ∀ u, select sc.2 = some u →
        allowed (view sc.1) u) ↔
      Checked allowed advance (view s) ((exec answer p s).selected select) := by
  induction p generalizing s with
  | done a => simp [exec, Ran.selected, Checked]
  | call c k ih =>
      cases h : answer c s with
      | error e =>
          cases hc : select c <;>
            simp [exec_call_error h, Ran.selected, hc, Checked]
      | ok rs =>
          rcases rs with ⟨r, s'⟩
          have hs' := hview c s r s' h
          have hrest := ih r s'
          rw [exec_call_ok h]
          cases hc : select c with
          | none =>
              rw [hc, Option.elim_none] at hs'
              simpa [Ran.selected, hc, hs'] using hrest
          | some u =>
              rw [hc, Option.elim_some] at hs'
              rw [hs'] at hrest
              simpa [Ran.selected, hc, Checked] using fun _ => hrest

/-- The view a run ends with is the initial one, advanced by its selected commands. -/
theorem exec_view
    (hview : ∀ c s r s', answer c s = .ok (r, s') →
      view s' = (select c).elim (view s) (advance (view s)))
    (p : Prog C R α) (s : S) {a : α} (ha : (exec answer p s).outcome = .ok a) :
    view (exec answer p s).state =
      ((exec answer p s).selected select).foldl advance (view s) := by
  induction p generalizing s with
  | done b => rfl
  | call c k ih =>
      cases h : answer c s with
      | error e => simp [exec_call_error h] at ha
      | ok rs =>
          rcases rs with ⟨r, s'⟩
          have hs' := hview c s r s' h
          rw [exec_call_ok h] at ha ⊢
          have hrest := ih r s' ha
          cases hc : select c <;>
            simp_all [Ran.selected]

end Checked

end Command
