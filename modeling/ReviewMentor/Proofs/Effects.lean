import Mathlib.Order.Defs.Unbundled
import Mathlib.Tactic.Common
/-!
# What work does to its state

Work may fail, and what it changed before stays changed. So a step that is taken after another one
starts from the state that the first one left, and only if that one did not fail. A relation between
the states before and after that holds of every step holds of the whole work, if it is reflexive and
transitive.
-/

namespace ReviewMentor.Effect

variable {ε α β σ : Type}

/-- The state that work leaves. -/
def after (w : ExceptT ε (StateM σ) α) (s : σ) : σ := (StateT.run (ExceptT.run w) s).2

/-- What comes out of work. -/
def outcome (w : ExceptT ε (StateM σ) α) (s : σ) : Except ε α := (StateT.run (ExceptT.run w) s).1

/-! ### One step after another -/

section Steps

variable (w : ExceptT ε (StateM σ) α) (f : α → ExceptT ε (StateM σ) β) (s : σ)

@[simp] theorem after_pure (a : α) : after (pure a : ExceptT ε (StateM σ) α) s = s := rfl

@[simp] theorem outcome_pure (a : α) : outcome (pure a : ExceptT ε (StateM σ) α) s = .ok a := rfl

@[simp] theorem after_throw (e : ε) : after (throw e : ExceptT ε (StateM σ) α) s = s := rfl

@[simp] theorem outcome_throw (e : ε) :
    outcome (throw e : ExceptT ε (StateM σ) α) s = .error e := rfl

theorem after_bind : after (w >>= f) s =
    match outcome w s with
    | .ok a => after (f a) (after w s)
    | .error _ => after w s := by
  unfold after outcome
  rw [ExceptT.run_bind, StateT.run_bind]
  rcases StateT.run (ExceptT.run w) s with ⟨e | a, s'⟩ <;> rfl

theorem outcome_bind : outcome (w >>= f) s =
    match outcome w s with
    | .ok a => outcome (f a) (after w s)
    | .error e => .error e := by
  unfold after outcome
  rw [ExceptT.run_bind, StateT.run_bind]
  rcases StateT.run (ExceptT.run w) s with ⟨e | a, s'⟩ <;> rfl

theorem after_get_bind (f : σ → ExceptT ε (StateM σ) β) :
    after (get >>= f) s = after (f s) s := rfl

theorem outcome_get_bind (f : σ → ExceptT ε (StateM σ) β) :
    outcome (get >>= f) s = outcome (f s) s := rfl

theorem after_set_bind (s' : σ) (f : PUnit → ExceptT ε (StateM σ) β) :
    after (set s' >>= f) s = after (f ⟨⟩) s' := rfl

theorem outcome_set_bind (s' : σ) (f : PUnit → ExceptT ε (StateM σ) β) :
    outcome (set s' >>= f) s = outcome (f ⟨⟩) s' := rfl

theorem after_modify_bind (g : σ → σ) (f : PUnit → ExceptT ε (StateM σ) β) :
    after (modify g >>= f) s = after (f ⟨⟩) (g s) := rfl

theorem outcome_modify_bind (g : σ → σ) (f : PUnit → ExceptT ε (StateM σ) β) :
    outcome (modify g >>= f) s = outcome (f ⟨⟩) (g s) := rfl

end Steps

section Bind

variable {w : ExceptT ε (StateM σ) α} {f : α → ExceptT ε (StateM σ) β} {s : σ}

theorem after_bind_ok {a : α} (h : outcome w s = .ok a) :
    after (w >>= f) s = after (f a) (after w s) := by
  rw [after_bind, h]

theorem after_bind_error {e : ε} (h : outcome w s = .error e) :
    after (w >>= f) s = after w s := by
  rw [after_bind, h]

theorem after_bind_pure (b : β) : after (w >>= fun _ => pure b) s = after w s := by
  rw [after_bind]
  split <;> rfl

theorem outcome_bind_ok {a : α} (h : outcome w s = .ok a) :
    outcome (w >>= f) s = outcome (f a) (after w s) := by
  rw [outcome_bind, h]

theorem outcome_bind_error {e : ε} (h : outcome w s = .error e) :
    outcome (w >>= f) s = .error e := by
  rw [outcome_bind, h]

/-- Work that does not fail fails at none of its steps. -/
theorem bind_ok {b : β} (h : outcome (w >>= f) s = .ok b) :
    ∃ a, outcome w s = .ok a ∧ outcome (f a) (after w s) = .ok b := by
  rcases hw : outcome w s with e | a
  · rw [outcome_bind_error hw] at h
    exact absurd h (by simp)
  · exact ⟨a, rfl, by rwa [outcome_bind_ok hw] at h⟩

/-- Work that does not fail goes on from where its first step left off. -/
theorem bind_ok_after {b : β} (h : outcome (w >>= f) s = .ok b) :
    ∃ a, outcome w s = .ok a ∧ outcome (f a) (after w s) = .ok b ∧
      after (w >>= f) s = after (f a) (after w s) := by
  obtain ⟨a, ha, hb⟩ := bind_ok h
  exact ⟨a, ha, hb, after_bind_ok ha⟩

theorem outcome_look {a : α} (hw : after w s = s) (h : outcome w s = .ok a) :
    outcome (w >>= f) s = outcome (f a) s := by
  rw [outcome_bind_ok h, hw]

/-- Work that does not fail goes on from the same state after a look at it. -/
theorem look_ok {b : β} (hw : after w s = s) (h : outcome (w >>= f) s = .ok b) :
    ∃ a, outcome w s = .ok a ∧ outcome (f a) s = .ok b ∧ after (w >>= f) s = after (f a) s := by
  obtain ⟨a, ha, hb, hafter⟩ := bind_ok_after h
  rw [hw] at hb hafter
  exact ⟨a, ha, hb, hafter⟩

/-- A result of steps is a result of each step. -/
theorem ok_of_bind {x : Except ε α} {g : α → Except ε β} {b : β} (h : x >>= g = .ok b) :
    ∃ a, x = .ok a ∧ g a = .ok b := by
  rcases x with e | a
  · exact absurd h (by simp [bind, Except.bind])
  · exact ⟨a, rfl, h⟩

theorem ok_of_toOption {x : Except ε α} {a : α} (h : x.toOption = some a) : x = .ok a := by
  rcases x with e | b
  · exact absurd h (by simp [Except.toOption])
  · exact congrArg _ (Option.some.inj h)

theorem toOption_eq_some {x : Except ε α} {a : α} : x.toOption = some a ↔ x = .ok a :=
  ⟨ok_of_toOption, fun h => h ▸ rfl⟩

end Bind

/-! ### Step by step over a list -/

section Lists

variable {f : α → ExceptT ε (StateM σ) β} {s : σ}

/-- Work on a list that fails did so at one element, after all elements before it. -/
theorem mapM_error {xs : List α} {e : ε} (h : outcome (xs.mapM f) s = .error e) :
    ∃ before x rest bs, xs = before ++ x :: rest ∧ outcome (before.mapM f) s = .ok bs ∧
      outcome (f x) (after (before.mapM f) s) = .error e ∧
      after (xs.mapM f) s = after (f x) (after (before.mapM f) s) := by
  induction xs generalizing s with
  | nil => simp at h
  | cons x rest ih =>
    rw [List.mapM_cons] at h
    rcases hx : outcome (f x) s with e' | b
    · rw [outcome_bind_error hx] at h
      obtain rfl := Except.error.inj h
      exact ⟨[], x, rest, [], rfl, rfl, hx, by rw [List.mapM_cons, after_bind_error hx]; rfl⟩
    · rw [outcome_bind_ok hx] at h
      rcases hrest : outcome (rest.mapM f) (after (f x) s) with e' | bs
      · rw [outcome_bind_error hrest] at h
        obtain rfl := Except.error.inj h
        obtain ⟨before, y, more, bs, rfl, hbefore, hy, hafter⟩ := ih hrest
        have hstep : after ((x :: before).mapM f) s = after (before.mapM f) (after (f x) s) := by
          rw [List.mapM_cons, after_bind_ok hx, after_bind_ok hbefore]
          rfl
        refine ⟨x :: before, y, more, b :: bs, rfl, ?_, ?_, ?_⟩
        · rw [List.mapM_cons, outcome_bind_ok hx, outcome_bind_ok hbefore]
          rfl
        · rw [hstep, hy]
        · rw [List.mapM_cons, after_bind_ok hx, after_bind_error hrest, hafter, hstep]
      · rw [outcome_bind_ok hrest] at h
        exact absurd h (by simp)

/-- Work on a list that does not fail fails at none of its elements. -/
theorem mapM_ok {xs : List α} {bs : List β} (h : outcome (xs.mapM f) s = .ok bs) :
    ∀ x ∈ xs, ∃ s' b, outcome (f x) s' = .ok b := by
  induction xs generalizing s bs with
  | nil => simp
  | cons x rest ih =>
    rw [List.mapM_cons] at h
    rcases hx : outcome (f x) s with e | b
    · rw [outcome_bind_error hx] at h
      exact absurd h (by simp)
    rw [outcome_bind_ok hx] at h
    rcases hrest : outcome (rest.mapM f) (after (f x) s) with e | cs
    · rw [outcome_bind_error hrest] at h
      exact absurd h (by simp)
    intro y hy
    rcases List.mem_cons.mp hy with rfl | hy
    · exact ⟨s, b, hx⟩
    · exact ih hrest y hy

end Lists

/-! ### Relations that work keeps -/

/-- The states before and after work are related. -/
def Keeps (R : σ → σ → Prop) (w : ExceptT ε (StateM σ) α) : Prop := ∀ s, R s (after w s)

namespace Keeps

variable {R : σ → σ → Prop} {w : ExceptT ε (StateM σ) α} {f : α → ExceptT ε (StateM σ) β}

theorem pure [Std.Refl R] (a : α) : Keeps R (Pure.pure a : ExceptT ε (StateM σ) α) :=
  fun s => refl_of R s

theorem throw [Std.Refl R] (e : ε) :
    Keeps R (MonadExcept.throw e : ExceptT ε (StateM σ) α) :=
  fun s => refl_of R s

theorem bind [IsTrans σ R] (hw : Keeps R w) (hf : ∀ a, Keeps R (f a)) : Keeps R (w >>= f) := by
  intro s
  rw [after_bind]
  split
  · next a _ => exact trans_of R (hw s) (hf a _)
  · exact hw s

theorem mapM [Std.Refl R] [IsTrans σ R] {xs : List α} (h : ∀ x ∈ xs, Keeps R (f x)) :
    Keeps R (xs.mapM f) := by
  induction xs with
  | nil => exact Keeps.pure []
  | cons x rest ih =>
    rw [List.mapM_cons]
    refine (h x List.mem_cons_self).bind fun b => ?_
    exact (ih fun y hy => h y (List.mem_cons_of_mem _ hy)).bind fun bs => Keeps.pure _

end Keeps

/-! ### How work fails -/

/-- Whenever work fails, its failure is one of those. -/
def FailsOnly (P : ε → Prop) (w : ExceptT ε (StateM σ) α) : Prop :=
  ∀ s e, outcome w s = .error e → P e

namespace FailsOnly

variable {P : ε → Prop} {w : ExceptT ε (StateM σ) α} {f : α → ExceptT ε (StateM σ) β}

theorem pure (a : α) : FailsOnly P (Pure.pure a : ExceptT ε (StateM σ) α) := by
  intro s e h
  exact absurd h (by simp)

theorem of_ok (h : ∀ s, ∃ a, outcome w s = .ok a) : FailsOnly P w := by
  intro s e he
  obtain ⟨a, ha⟩ := h s
  rw [ha] at he
  exact absurd he (by simp)

theorem throw {e : ε} (he : P e) :
    FailsOnly P (MonadExcept.throw e : ExceptT ε (StateM σ) α) := by
  intro s e' h
  exact Except.error.inj h ▸ he

theorem bind (hw : FailsOnly P w) (hf : ∀ a, FailsOnly P (f a)) : FailsOnly P (w >>= f) := by
  intro s e h
  rcases hs : outcome w s with e' | a
  · rw [outcome_bind_error hs] at h
    exact Except.error.inj h ▸ hw s e' hs
  · rw [outcome_bind_ok hs] at h
    exact hf a _ e h

end FailsOnly

end ReviewMentor.Effect
