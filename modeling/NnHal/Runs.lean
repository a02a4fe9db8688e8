import Mathlib.Logic.Function.Basic
import Mathlib.Data.List.Basic

/-!
# Runs

A run applies a step function to a list of actions, one after the other.
`Checked allowed step s as` says that every action of the run from `s` is
allowed in the state it meets; an invariant of the allowed steps holds at the
end of a checked run.

`Clients` is a system in which every action belongs to a client, reads and
writes a state that all clients share, and changes only the client's own state
besides.  `Clients.noninterference` compares the answers one client receives
with those it receives when no other client acts.
-/

namespace Runs

section Checked

variable {S A : Type} {allowed : S → A → Prop} {step : S → A → S}

/-- Every action of the list is allowed in the state it meets. -/
def Checked (allowed : S → A → Prop) (step : S → A → S) : S → List A → Prop
  | _, [] => True
  | s, a :: as => allowed s a ∧ Checked allowed step (step s a) as

instance decidableChecked [∀ s a, Decidable (allowed s a)] :
    (s : S) → (as : List A) → Decidable (Checked allowed step s as)
  | _, [] => isTrue trivial
  | s, a :: as =>
      have := decidableChecked (step s a) as
      inferInstanceAs (Decidable (allowed s a ∧ Checked allowed step (step s a) as))

theorem checked_append {s : S} {as bs : List A} :
    Checked allowed step s (as ++ bs) ↔
      Checked allowed step s as ∧ Checked allowed step (as.foldl step s) bs := by
  induction as generalizing s with
  | nil => simp [Checked]
  | cons a as ih => simp [Checked, ih, and_assoc]

theorem Checked.initial {s : S} {as bs : List A} (h : as <+: bs)
    (hbs : Checked allowed step s bs) : Checked allowed step s as := by
  rcases h with ⟨cs, rfl⟩
  exact (checked_append.mp hbs).1

theorem Checked.mono {allowed' : S → A → Prop} {s : S} {as : List A}
    (h : Checked allowed step s as) (hmono : ∀ s a, allowed s a → allowed' s a) :
    Checked allowed' step s as := by
  induction as generalizing s with
  | nil => trivial
  | cons a as ih => exact ⟨hmono s a h.1, ih h.2⟩

/-- What every allowed step preserves holds at the end of a checked run. -/
theorem Checked.invariant {I : S → Prop} {s : S} {as : List A}
    (h : Checked allowed step s as) (hs : I s)
    (hstep : ∀ s a, I s → allowed s a → I (step s a)) : I (as.foldl step s) := by
  induction as generalizing s with
  | nil => exact hs
  | cons a as ih => exact ih h.2 (hstep s a hs h.1)

/-- An invariant of the allowed steps holds wherever a checked run gets to. -/
theorem Checked.with_invariant {I : S → Prop} {s : S} {as : List A}
    (h : Checked allowed step s as) (hs : I s)
    (hstep : ∀ s a, I s → allowed s a → I (step s a)) :
    Checked (fun s a => I s ∧ allowed s a) step s as := by
  induction as generalizing s with
  | nil => trivial
  | cons a as ih => exact ⟨⟨hs, h.1⟩, ih h.2 (hstep s a hs h.1)⟩

theorem Checked.and {allowed' : S → A → Prop} {s : S} {as : List A}
    (h : Checked allowed step s as) (h' : Checked allowed' step s as) :
    Checked (fun s a => allowed s a ∧ allowed' s a) step s as := by
  induction as generalizing s with
  | nil => trivial
  | cons a as ih => exact ⟨⟨h.1, h'.1⟩, ih h.2 h'.2⟩

/-- Where a run gets to is among the states it goes through. -/
theorem foldl_mem_scanl {s : S} {as bs : List A} (h : as <+: bs) :
    as.foldl step s ∈ bs.scanl step s := by
  rcases h with ⟨cs, rfl⟩
  rw [List.scanl_append]
  exact List.mem_append_left _ (List.mem_of_getLast? List.getLast?_scanl)

/-- What every allowed step preserves holds in every state of a checked run. -/
theorem Checked.states {I : S → Prop} {s : S} {as : List A}
    (h : Checked allowed step s as) (hs : I s)
    (hstep : ∀ s a, I s → allowed s a → I (step s a)) : ∀ t ∈ as.scanl step s, I t := by
  induction as generalizing s with
  | nil =>
      intro t ht
      rw [List.mem_singleton.mp ht]
      exact hs
  | cons a as ih =>
      intro t ht
      rw [List.scanl_cons] at ht
      rcases List.mem_cons.mp ht with rfl | hrest
      · exact hs
      · exact ih h.2 (hstep s a hs h.1) t hrest

/-- What holds in every state of a run holds before and after each action. -/
theorem checked_of_states {I : S → Prop} {s : S} {as : List A}
    (h : ∀ t ∈ as.scanl step s, I t) : Checked (fun s a => I s ∧ I (step s a)) step s as := by
  induction as generalizing s with
  | nil => trivial
  | cons a as ih =>
      rw [List.scanl_cons] at h
      have hrest : ∀ t ∈ as.scanl step (step s a), I t :=
        fun t ht => h t (List.mem_cons_of_mem _ ht)
      have hnext : step s a ∈ as.scanl step (step s a) := foldl_mem_scanl List.nil_prefix
      exact ⟨⟨h s List.mem_cons_self, hrest _ hnext⟩, ih hrest⟩

/-- Actions that take different keys find them free. -/
theorem checked_of_nodup {K : Type} {key : A → Option K} {taken : S → K → Prop} {before : List K}
    {s : S} {as : List A} (hnodup : (before ++ as.filterMap key).Nodup)
    (hs : ∀ k, taken s k → k ∈ before)
    (hstep : ∀ s a k, taken (step s a) k → taken s k ∨ key a = some k) :
    Checked (fun s a => ∀ k, key a = some k → ¬ taken s k) step s as := by
  induction as generalizing s before with
  | nil => trivial
  | cons a as ih =>
      cases hkey : key a with
      | none =>
          rw [List.filterMap_cons_none hkey] at hnodup
          refine ⟨fun k hk => by simp [hkey] at hk, ih hnodup fun k hk => ?_⟩
          rcases hstep s a k hk with hbefore | ha
          · exact hs k hbefore
          · simp [hkey] at ha
      | some k =>
          rw [List.filterMap_cons_some hkey] at hnodup
          constructor
          · intro j hj hfree
            obtain rfl : k = j := Option.some.inj (hkey.symm.trans hj)
            exact (List.nodup_append.mp hnodup).2.2 k (hs k hfree) k List.mem_cons_self rfl
          · rw [← List.singleton_append, ← List.append_assoc] at hnodup
            apply ih hnodup
            intro j hj
            rcases hstep s a j hj with hbefore | ha
            · exact List.mem_append_left _ (hs j hbefore)
            · obtain rfl : k = j := Option.some.inj (hkey.symm.trans ha)
              exact List.mem_append_right _ (List.mem_singleton_self k)

theorem checked_iff_forall {P : A → Prop} {s : S} {as : List A} :
    Checked (fun _ a => P a) step s as ↔ ∀ a ∈ as, P a := by
  induction as generalizing s with
  | nil => simp [Checked]
  | cons a as ih => simp [Checked, ih]

end Checked

/-! ## Runs that stop -/

section Upto

variable {S A B : Type} {stops : A → Bool}

/-- The list up to its first element that stops, that one included. -/
def upto (stops : A → Bool) : List A → List A
  | [] => []
  | a :: as => if stops a then [a] else a :: upto stops as

theorem upto_of_not_any {as : List A} (h : as.any stops = false) : upto stops as = as := by
  induction as with
  | nil => rfl
  | cons a as ih =>
      rw [List.any_cons, Bool.or_eq_false_iff] at h
      simp [upto, h.1, ih h.2]

theorem upto_append {as bs : List A} :
    upto stops (as ++ bs) =
      if as.any stops then upto stops as else as ++ upto stops bs := by
  induction as with
  | nil => simp
  | cons a as ih =>
      by_cases ha : stops a = true
      · simp [upto, ha]
      · simp only [List.cons_append, upto, ha, Bool.false_eq_true, if_false, List.any_cons,
          Bool.false_or, ih]
        split <;> rfl

theorem mem_of_mem_upto {as : List A} {a : A} (h : a ∈ upto stops as) : a ∈ as := by
  induction as with
  | nil => exact h
  | cons b as ih =>
      unfold upto at h
      split at h
      · exact List.mem_cons.mpr (.inl (List.mem_singleton.mp h))
      · rcases List.mem_cons.mp h with rfl | hmem
        · exact List.mem_cons_self
        · exact List.mem_cons_of_mem _ (ih hmem)

/-- A run whose actions come in blocks is checked action by action exactly when
it is checked block by block. -/
theorem checked_upto_flatMap {allowed : S → A → Prop} {step : S → A → S} {f : B → List A}
    {allowed' : S → B → Prop} {step' : S → B → S} (bs : List B)
    (hallowed : ∀ s, ∀ b ∈ bs, Checked allowed step s (upto stops (f b)) ↔ allowed' s b)
    (hstep : ∀ s, ∀ b ∈ bs, (f b).any stops = false → (f b).foldl step s = step' s b) (s : S) :
    Checked allowed step s (upto stops (bs.flatMap f)) ↔
      Checked allowed' step' s (upto (fun b => (f b).any stops) bs) := by
  induction bs generalizing s with
  | nil => simp [upto, Checked]
  | cons b bs ih =>
      have hb := hallowed s b List.mem_cons_self
      have hend := hstep s b List.mem_cons_self
      have hrest := ih (fun s c hc => hallowed s c (List.mem_cons_of_mem _ hc))
        (fun s c hc => hstep s c (List.mem_cons_of_mem _ hc))
      rw [List.flatMap_cons, upto_append]
      by_cases hstop : (f b).any stops = true
      · simp [upto, hstop, Checked, hb]
      · have hfalse := Bool.not_eq_true _ ▸ hstop
        rw [upto_of_not_any hfalse] at hb
        simp only [upto, hstop, Bool.false_eq_true, if_false, Checked]
        rw [checked_append, hb, hend hfalse, hrest]

end Upto

/-! ## Clients of a shared state -/

/-- What an action does to the shared state and to the state of its client,
and its answer. -/
structure Clients (Sh L A O : Type) where
  act : Sh → L → A → Sh × L × O

namespace Clients

variable {K Sh L A O : Type} [DecidableEq K] (sys : Clients Sh L A O)

/-- One action of one client. -/
def step (w : Sh × (K → L)) (a : K × A) : Sh × (K → L) :=
  let r := sys.act w.1 (w.2 a.1) a.2
  (r.1, Function.update w.2 a.1 r.2.1)

/-- The answers a client receives in a run. -/
def answers (k : K) : Sh × (K → L) → List (K × A) → List O
  | _, [] => []
  | w, a :: as =>
      if a.1 = k then (sys.act w.1 (w.2 k) a.2).2.2 :: answers k (sys.step w a) as
      else answers k (sys.step w a) as

variable {sys} {k : K} {fits : Sh → L → A → Prop} {I : Sh → L → Prop}

/-- The run without the actions of the other clients. -/
def alone (k : K) (as : List (K × A)) : List (K × A) := as.filter fun a => a.1 = k

theorem step_other {w : Sh × (K → L)} {a : K × A} (ha : a.1 ≠ k) :
    (sys.step w a).2 k = w.2 k := by
  simp [step, Function.update_of_ne (Ne.symm ha)]

theorem step_own {w : Sh × (K → L)} {a : K × A} (ha : a.1 = k) :
    (sys.step w a).2 k = (sys.act w.1 (w.2 k) a.2).2.1 := by
  subst ha
  simp [step]

/-- **Noninterference.**  The answers of a client are those it receives alone,
when each of its actions meets a shared state that fits: among the states that
fit, the action's effect on the client and its answer are the same, and when
the client is alone the state always fits. -/
theorem noninterference
    (hsame : ∀ sh sh' l a, fits sh l a → fits sh' l a → (sys.act sh l a).2 = (sys.act sh' l a).2)
    (hfits : ∀ sh l a, I sh l → fits sh l a)
    (hkeep : ∀ sh l a, I sh l → I (sys.act sh l a).1 (sys.act sh l a).2.1)
    {w w' : Sh × (K → L)} (hlocal : w.2 k = w'.2 k) (hinv : I w'.1 (w'.2 k))
    {as : List (K × A)}
    (has : Checked (fun w a => a.1 = k → fits w.1 (w.2 k) a.2) sys.step w as) :
    sys.answers k w as = sys.answers k w' (alone k as) := by
  induction as generalizing w w' with
  | nil => rfl
  | cons a as ih =>
      rcases has with ⟨hfit, hrest⟩
      by_cases ha : a.1 = k
      · have hact : (sys.act w.1 (w.2 k) a.2).2 = (sys.act w'.1 (w'.2 k) a.2).2 := by
          rw [← hlocal]
          exact hsame _ _ _ _ (hfit ha) (hlocal ▸ hfits _ _ _ hinv)
        have hnext : (sys.step w a).2 k = (sys.step w' a).2 k := by
          rw [step_own ha, step_own ha, hact]
        have hinv' : I (sys.step w' a).1 ((sys.step w' a).2 k) := by
          rw [step_own ha]
          subst ha
          exact hkeep _ _ _ hinv
        simp only [answers, alone, ha, decide_true, List.filter_cons_of_pos, if_true]
        rw [hact]
        exact congrArg _ (ih hnext hinv' hrest)
      · have hnext : (sys.step w a).2 k = w'.2 k := (step_other ha).trans hlocal
        simp only [answers, alone, ha, decide_false, Bool.false_eq_true, not_false_eq_true,
          List.filter_cons_of_neg, if_false]
        exact ih hnext hinv hrest

end Clients

end Runs
