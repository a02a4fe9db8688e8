import NnHal.CommandPrograms

/-!
# Runs that only read

Most programs of a graph construction look at the state and leave it as it
is.  `Returns` is what such a run gives back when it returns; `Agree` compares
the results of two of them, each in a state of its own; `Ends` is for those
that write at their end.  `Gives` and `Leaves` say the same and that the run does
return; `Cleanly` is for the runs that avoid some commands.  Each has one rule
for every way a program is put together, so a proof follows the program text.
-/

namespace Command

variable {C : Type} {R : C → Type} {S ε α β : Type}
variable {answer : (c : C) → S → Except ε (R c × S)}

/-- A run that returns leaves the state unchanged and returns a value in `Q`. -/
def Returns (answer : (c : C) → S → Except ε (R c × S)) (s : S) (p : Prog C R α)
    (Q : α → Prop) : Prop :=
  ∀ a, (exec answer p s).outcome = .ok a → (exec answer p s).state = s ∧ Q a

section Returns

variable {s : S} {p : Prog C R α} {Q Q' : α → Prop}

/-- What is given back is the value. -/
theorem returns_pure {a : α} (h : Q a) : Returns answer s (pure a : Prog C R α) Q := by
  intro b hb
  cases hb
  exact ⟨rfl, h⟩

/-- One command, where it leaves the state. -/
theorem returns_perform {c : C} {Q : R c → Prop}
    (h : ∀ r s', answer c s = .ok (r, s') → s' = s ∧ Q r) :
    Returns answer s (Prog.perform c) Q := by
  intro a ha
  cases hc : answer c s with
  | error e =>
      rw [Prog.perform, exec_call_error hc] at ha
      cases ha
  | ok rs =>
      rw [Prog.perform, exec_call_ok hc] at ha ⊢
      cases ha
      exact h rs.1 rs.2 hc

/-- A sequence, where the second half is told what the first gives. -/
theorem Returns.bind {f : α → Prog C R β} {P : β → Prop} (hp : Returns answer s p Q)
    (hf : ∀ a, Q a → Returns answer s (f a) P) : Returns answer s (p >>= f) P := by
  intro b hb
  cases ha : (exec answer p s).outcome with
  | error e =>
      rw [exec_bind_error ha] at hb
      cases hb
  | ok a =>
      obtain ⟨hstate, hQ⟩ := hp a ha
      rw [exec_bind_ok ha, hstate] at hb ⊢
      exact hf a hQ b hb

theorem Returns.mono (hp : Returns answer s p Q) (h : ∀ a, Q a → Q' a) :
    Returns answer s p Q' := by
  intro a ha
  exact ⟨(hp a ha).1, h a (hp a ha).2⟩

/-- What every result satisfies is known of the result of a run. -/
theorem Returns.yields (hp : Returns answer s p fun _ => True) (hy : Yields Q p) :
    Returns answer s p Q := by
  intro a ha
  exact ⟨(hp a ha).1, hy.outcome ha⟩

/-- A choice; each branch may use its condition. -/
theorem returns_ite {b : Prop} [Decidable b] {q : Prog C R α}
    (hp : b → Returns answer s p Q) (hq : ¬ b → Returns answer s q Q) :
    Returns answer s (if b then p else q) Q := by
  by_cases hb : b
  · simpa [hb] using hp hb
  · simpa [hb] using hq hb

end Returns

/-! ## Runs that also write -/

/-- A run that returns leaves a value and a state in `Q`. -/
def Ends (answer : (c : C) → S → Except ε (R c × S)) (s : S) (p : Prog C R α)
    (Q : α → S → Prop) : Prop :=
  ∀ a, (exec answer p s).outcome = .ok a → Q a (exec answer p s).state

section Ends

variable {s : S} {p : Prog C R α} {Q Q' : α → S → Prop}

/-- Reading is a way to end. -/
theorem Returns.ends {Q : α → Prop} (hp : Returns answer s p Q) :
    Ends answer s p fun a s' => s' = s ∧ Q a := hp

/-- The same for a state that changes. -/
theorem Ends.bind {f : α → Prog C R β} {P : β → S → Prop} (hp : Ends answer s p Q)
    (hf : ∀ a s', Q a s' → Ends answer s' (f a) P) : Ends answer s (p >>= f) P := by
  intro b hb
  cases ha : (exec answer p s).outcome with
  | error e =>
      rw [exec_bind_error ha] at hb
      cases hb
  | ok a =>
      rw [exec_bind_ok ha] at hb ⊢
      exact hf a _ (hp a ha) b hb

/-- A reading program in front changes nothing. -/
theorem Returns.bind_ends {Q : α → Prop} {f : α → Prog C R β} {P : β → S → Prop}
    (hp : Returns answer s p Q) (hf : ∀ a, Q a → Ends answer s (f a) P) :
    Ends answer s (p >>= f) P := by
  refine hp.ends.bind fun a s' h => ?_
  rcases h with ⟨rfl, hQ⟩
  exact hf a hQ

theorem Ends.mono (hp : Ends answer s p Q) (h : ∀ a s', Q a s' → Q' a s') :
    Ends answer s p Q' := fun a ha => h a _ (hp a ha)

end Ends

/-! ## Runs that return -/

/-- A run returns a value in `Q` and leaves the state unchanged. -/
def Gives (answer : (c : C) → S → Except ε (R c × S)) (s : S) (p : Prog C R α)
    (Q : α → Prop) : Prop :=
  ∃ a, (exec answer p s).outcome = .ok a ∧ (exec answer p s).state = s ∧ Q a

/-- A run returns and leaves a value and a state in `Q`. -/
def Leaves (answer : (c : C) → S → Except ε (R c × S)) (s : S) (p : Prog C R α)
    (Q : α → S → Prop) : Prop :=
  ∃ a, (exec answer p s).outcome = .ok a ∧ Q a (exec answer p s).state

section Gives

variable {s : S} {p : Prog C R α} {Q Q' : α → Prop}

/-- A value is given. -/
theorem gives_pure {a : α} (h : Q a) : Gives answer s (pure a : Prog C R α) Q := ⟨a, rfl, rfl, h⟩

/-- A command that is answered. -/
theorem gives_perform {c : C} {r : R c} {Q : R c → Prop} (hc : answer c s = .ok (r, s))
    (h : Q r) : Gives answer s (Prog.perform c) Q := by
  refine ⟨r, ?_, ?_, h⟩
  · rw [Prog.perform, exec_call_ok hc]
    rfl
  · rw [Prog.perform, exec_call_ok hc]
    rfl

/-- What is given is returned. -/
theorem Gives.returns (hp : Gives answer s p Q) : Returns answer s p Q := by
  intro a ha
  rcases hp with ⟨b, hb, hstate, hQ⟩
  obtain rfl := Except.ok.inj (hb.symm.trans ha)
  exact ⟨hstate, hQ⟩

/-- A sequence of two that give. -/
theorem Gives.bind {f : α → Prog C R β} {P : β → Prop} (hp : Gives answer s p Q)
    (hf : ∀ a, Q a → Gives answer s (f a) P) : Gives answer s (p >>= f) P := by
  rcases hp with ⟨a, ha, hstate, hQ⟩
  obtain ⟨b, hb, hstate', hP⟩ := hf a hQ
  refine ⟨b, ?_, ?_, hP⟩
  · rw [exec_bind_ok ha, hstate]
    exact hb
  · rw [exec_bind_ok ha, hstate]
    exact hstate'

/-- What is said of the rest of a run is said of the run. -/
theorem Gives.run {f : α → Prog C R β} {P : Except ε β → S → Prop} (hp : Gives answer s p Q)
    (hf : ∀ a, Q a → P (exec answer (f a) s).outcome (exec answer (f a) s).state) :
    P (exec answer (p >>= f) s).outcome (exec answer (p >>= f) s).state := by
  rcases hp with ⟨a, ha, hstate, hQ⟩
  rw [exec_bind_ok ha, hstate]
  exact hf a hQ

theorem Gives.mono (hp : Gives answer s p Q) (h : ∀ a, Q a → Q' a) : Gives answer s p Q' := by
  rcases hp with ⟨a, ha, hstate, hQ⟩
  exact ⟨a, ha, hstate, h a hQ⟩

theorem gives_ite {b : Prop} [Decidable b] {q : Prog C R α} (hp : b → Gives answer s p Q)
    (hq : ¬ b → Gives answer s q Q) : Gives answer s (if b then p else q) Q := by
  by_cases hb : b
  · simpa [hb] using hp hb
  · simpa [hb] using hq hb

/-- Giving leaves the state as it was. -/
theorem Gives.leaves (hp : Gives answer s p Q) :
    Leaves answer s p fun a s' => s' = s ∧ Q a := hp

end Gives

section Leaves

variable {s : S} {p : Prog C R α} {Q Q' : α → S → Prop}

/-- A command that is answered, with its state. -/
theorem leaves_perform {c : C} {r : R c} {s' : S} {Q : R c → S → Prop}
    (hc : answer c s = .ok (r, s')) (h : Q r s') : Leaves answer s (Prog.perform c) Q := by
  refine ⟨r, ?_, ?_⟩
  · rw [Prog.perform, exec_call_ok hc]
    rfl
  · rw [Prog.perform, exec_call_ok hc]
    exact h

/-- A sequence, from state to state. -/
theorem Leaves.bind {f : α → Prog C R β} {P : β → S → Prop} (hp : Leaves answer s p Q)
    (hf : ∀ a s', Q a s' → Leaves answer s' (f a) P) : Leaves answer s (p >>= f) P := by
  rcases hp with ⟨a, ha, hQ⟩
  obtain ⟨b, hb, hP⟩ := hf a _ hQ
  refine ⟨b, ?_, ?_⟩
  · rw [exec_bind_ok ha]
    exact hb
  · rw [exec_bind_ok ha]
    exact hP

/-- A reading program in front changes nothing. -/
theorem Gives.bind_leaves {Q : α → Prop} {f : α → Prog C R β} {P : β → S → Prop}
    (hp : Gives answer s p Q) (hf : ∀ a, Q a → Leaves answer s (f a) P) :
    Leaves answer s (p >>= f) P := by
  apply hp.leaves.bind
  intro a s' h
  rcases h with ⟨rfl, hQ⟩
  exact hf a hQ

theorem Leaves.mono (hp : Leaves answer s p Q) (h : ∀ a s', Q a s' → Q' a s') :
    Leaves answer s p Q' := by
  rcases hp with ⟨a, ha, hQ⟩
  exact ⟨a, ha, h a _ hQ⟩

/-- What is left is where the run ends. -/
theorem Leaves.ends (hp : Leaves answer s p Q) : Ends answer s p Q := by
  intro a ha
  rcases hp with ⟨b, hb, hQ⟩
  obtain rfl := Except.ok.inj (hb.symm.trans ha)
  exact hQ

end Leaves

/-! ## Runs without a bad command -/

/-- A run that returns, and has issued no command in a state where it is bad, leaves a
value and a state in `Q`. -/
def Cleanly (answer : (c : C) → S → Except ε (R c × S)) (bad : S → C → Prop) (s : S)
    (p : Prog C R α) (Q : α → S → Prop) : Prop :=
  ∀ a, (exec answer p s).outcome = .ok a →
    (∀ sc ∈ (exec answer p s).trace, ¬ bad sc.1 sc.2) → Q a (exec answer p s).state

section Cleanly

variable {bad : S → C → Prop} {s : S} {p : Prog C R α} {Q : α → S → Prop}

/-- Whatever ends so, ends so without a bad step. -/
theorem Ends.cleanly (hp : Ends answer s p Q) : Cleanly answer bad s p Q := fun a ha _ => hp a ha

/-- The second half is clean where the whole is. -/
theorem Cleanly.bind {f : α → Prog C R β} {P : β → S → Prop} (hp : Cleanly answer bad s p Q)
    (hf : ∀ a s', Q a s' → Cleanly answer bad s' (f a) P) : Cleanly answer bad s (p >>= f) P := by
  intro b hb hclean
  cases ha : (exec answer p s).outcome with
  | error e =>
      rw [exec_bind_error ha] at hb
      cases hb
  | ok a =>
      rw [exec_bind_ok ha] at hb hclean ⊢
      have hfront : ∀ sc ∈ (exec answer p s).trace, ¬ bad sc.1 sc.2 :=
        fun sc hsc => hclean sc (List.mem_append_left _ hsc)
      have hrest : ∀ sc ∈ (exec answer (f a) (exec answer p s).state).trace, ¬ bad sc.1 sc.2 :=
        fun sc hsc => hclean sc (List.mem_append_right _ hsc)
      exact hf a _ (hp a ha hfront) b hb hrest

/-- The first half may be clean anyway. -/
theorem Ends.bind_cleanly {f : α → Prog C R β} {P : β → S → Prop} (hp : Ends answer s p Q)
    (hf : ∀ a s', Q a s' → Cleanly answer bad s' (f a) P) : Cleanly answer bad s (p >>= f) P :=
  hp.cleanly.bind hf

/-- It may read only. -/
theorem Returns.bind_cleanly {Q : α → Prop} {f : α → Prog C R β} {P : β → S → Prop}
    (hp : Returns answer s p Q) (hf : ∀ a, Q a → Cleanly answer bad s (f a) P) :
    Cleanly answer bad s (p >>= f) P := by
  refine hp.ends.bind_cleanly fun a s' h => ?_
  rcases h with ⟨rfl, hQ⟩
  exact hf a hQ

/-- Nothing is promised past a bad command. -/
theorem cleanly_bad {c : C} {Q : R c → S → Prop} (hbad : bad s c) :
    Cleanly answer bad s (Prog.perform c) Q := by
  intro a _ hclean
  refine absurd hbad (hclean (s, c) ?_)
  rw [Prog.perform]
  cases hc : answer c s with
  | error e =>
      rw [exec_call_error hc]
      exact List.mem_singleton_self _
  | ok rs =>
      rw [exec_call_ok hc]
      exact List.mem_cons_self

end Cleanly

/-- A run returns when the environment answers every command but the harmful
ones, and the program issues none of those. -/
theorem Follows.returns {U : Type} {select : C → Option U} {harmless : U → Prop}
    {p : Prog C R α} {us : List U} (hp : Follows select p us) (hus : ∀ u ∈ us, harmless u)
    (hanswer : ∀ c s, (∀ u, select c = some u → harmless u) → ∃ rs, answer c s = .ok rs) (s : S) :
    ∃ a, (exec answer p s).outcome = .ok a := by
  induction p generalizing us s with
  | done a => exact ⟨a, rfl⟩
  | call c k ih =>
      cases hc : select c with
      | none =>
          obtain ⟨rs, hrs⟩ := hanswer c s (by simp [hc])
          rw [exec_call_ok hrs]
          exact ih rs.1 ((follows_call_none hc).mp hp rs.1) hus rs.2
      | some u =>
          obtain ⟨vs, rfl, hk⟩ := (follows_call_some hc).mp hp
          obtain ⟨rs, hrs⟩ := hanswer c s (by simpa [hc] using hus u List.mem_cons_self)
          rw [exec_call_ok hrs]
          exact ih rs.1 (hk rs.1) (fun v hv => hus v (List.mem_cons_of_mem _ hv)) rs.2

/-! ## Two runs -/

section Agree

variable {S' ε' α' β' : Type} {answer' : (c : C) → S' → Except ε' (R c × S')}

/-- Two runs that both return leave their states unchanged and return related
values. -/
def Agree (answer : (c : C) → S → Except ε (R c × S))
    (answer' : (c : C) → S' → Except ε' (R c × S')) (s : S) (s' : S')
    (p : Prog C R α) (p' : Prog C R α') (Q : α → α' → Prop) : Prop :=
  ∀ a a', (exec answer p s).outcome = .ok a → (exec answer' p' s').outcome = .ok a' →
    (exec answer p s).state = s ∧ (exec answer' p' s').state = s' ∧ Q a a'

variable {s : S} {s' : S'} {p : Prog C R α} {p' : Prog C R α'} {Q Q' : α → α' → Prop}

/-- Two runs that need not be compared step by step. -/
theorem Returns.agree {P : α → Prop} {P' : α' → Prop} (hp : Returns answer s p P)
    (hp' : Returns answer' s' p' P') :
    Agree answer answer' s s' p p' fun a a' => P a ∧ P' a' := by
  intro a a' ha ha'
  obtain ⟨hstate, hP⟩ := hp a ha
  obtain ⟨hstate', hP'⟩ := hp' a' ha'
  exact ⟨hstate, hstate', hP, hP'⟩

/-- Two values that are related. -/
theorem agree_pure {a : α} {a' : α'} (h : Q a a') :
    Agree answer answer' s s' (pure a) (pure a') Q := by
  intro b b' hb hb'
  cases hb
  cases hb'
  exact ⟨rfl, rfl, h⟩

/-- Two sequences, half by half. -/
theorem Agree.bind {f : α → Prog C R β} {f' : α' → Prog C R β'} {P : β → β' → Prop}
    (hp : Agree answer answer' s s' p p' Q)
    (hf : ∀ a a', Q a a' → Agree answer answer' s s' (f a) (f' a') P) :
    Agree answer answer' s s' (p >>= f) (p' >>= f') P := by
  intro b b' hb hb'
  cases ha : (exec answer p s).outcome with
  | error e =>
      rw [exec_bind_error ha] at hb
      cases hb
  | ok a =>
      cases ha' : (exec answer' p' s').outcome with
      | error e =>
          rw [exec_bind_error ha'] at hb'
          cases hb'
      | ok a' =>
          obtain ⟨hstate, hstate', hQ⟩ := hp a a' ha ha'
          rw [exec_bind_ok ha, hstate] at hb ⊢
          rw [exec_bind_ok ha', hstate'] at hb' ⊢
          exact hf a a' hQ b b' hb hb'

/-- The relation may be weaker. -/
theorem Agree.mono (hp : Agree answer answer' s s' p p' Q) (h : ∀ a a', Q a a' → Q' a a') :
    Agree answer answer' s s' p p' Q' := by
  intro a a' ha ha'
  obtain ⟨hstate, hstate', hQ⟩ := hp a a' ha ha'
  exact ⟨hstate, hstate', h a a' hQ⟩

/-- Two runs that branch on the same condition. -/
theorem agree_ite {b b' : Prop} [Decidable b] [Decidable b'] {q : Prog C R α}
    {q' : Prog C R α'} (hb : b ↔ b') (hp : b → Agree answer answer' s s' p p' Q)
    (hq : ¬ b → Agree answer answer' s s' q q' Q) :
    Agree answer answer' s s' (if b then p else q) (if b' then p' else q') Q := by
  by_cases h : b
  · simpa [h, hb.mp h] using hp h
  · simpa [h, mt hb.mpr h] using hq h

end Agree

end Command
