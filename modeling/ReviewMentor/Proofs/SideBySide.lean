import ReviewMentor.Proofs.Effects

/-!
# Two runs side by side

What work looks at shows when it is run from two states: if they look the same to the work, it comes
to the same result and leaves states that look the same. Running two pieces of work side by side
says this and what the first of them changes in one go, so that the shape of the work is followed
only once.
-/

namespace ReviewMentor.Effect

variable {ε α β σ : Type}

/-! ### Work that respects a view -/

/-- From states that look the same, work comes to the same result and leaves states that look the
same. -/
def Respects (V : σ → σ → Prop) (w : ExceptT ε (StateM σ) α) : Prop :=
  ∀ s s', V s s' → outcome w s' = outcome w s ∧ V (after w s) (after w s')

namespace Respects

variable {V : σ → σ → Prop} {w : ExceptT ε (StateM σ) α} {f : α → ExceptT ε (StateM σ) β}

theorem pure (a : α) : Respects V (Pure.pure a : ExceptT ε (StateM σ) α) :=
  fun _ _ h => ⟨rfl, h⟩

theorem throw (e : ε) : Respects V (MonadExcept.throw e : ExceptT ε (StateM σ) α) :=
  fun _ _ h => ⟨rfl, h⟩

theorem bind (hw : Respects V w) (hf : ∀ a, Respects V (f a)) : Respects V (w >>= f) := by
  intro s s' h
  obtain ⟨houtcome, hafter⟩ := hw s s' h
  rcases hs : outcome w s with e | a
  · rw [hs] at houtcome
    rw [outcome_bind_error hs, outcome_bind_error houtcome, after_bind_error hs,
      after_bind_error houtcome]
    exact ⟨rfl, hafter⟩
  · rw [hs] at houtcome
    rw [outcome_bind_ok hs, outcome_bind_ok houtcome, after_bind_ok hs, after_bind_ok houtcome]
    exact hf a _ _ hafter

theorem mapM {xs : List α} (h : ∀ x ∈ xs, Respects V (f x)) : Respects V (xs.mapM f) := by
  induction xs with
  | nil => exact Respects.pure []
  | cons x rest ih =>
    rw [List.mapM_cons]
    refine (h x List.mem_cons_self).bind fun b => ?_
    exact (ih fun y hy => h y (List.mem_cons_of_mem _ hy)).bind fun bs => Respects.pure _

end Respects

/-! ### Two pieces of work -/

/-- Two pieces of work come to the same result and leave states that `A` relates, and the first one
changes its state as `R` says. -/
structure Agree (A R : σ → σ → Prop) (s s' : σ) (w w' : StateM σ α) : Prop where
  value : (StateT.run w' s').1 = (StateT.run w s).1
  alike : A (StateT.run w s).2 (StateT.run w' s').2
  moves : R s (StateT.run w s).2

namespace Agree

variable {A R : σ → σ → Prop} {s s' : σ}

section States

variable {w w' : StateM σ α} {f f' : α → StateM σ β}

theorem pure [Std.Refl R] (a : α) (h : A s s') :
    Agree A R s s' (Pure.pure a : StateM σ α) (Pure.pure a) :=
  ⟨rfl, h, refl_of R s⟩

theorem bind [IsTrans σ R] (hw : Agree A R s s' w w')
    (hf : ∀ a t t', StateT.run w s = (a, t) → A t t' → Agree A R t t' (f a) (f' a)) :
    Agree A R s s' (w >>= f) (w' >>= f') := by
  obtain ⟨hvalue, halike, hmoves⟩ := hw
  rcases hs : StateT.run w s with ⟨a, t⟩
  rcases hs' : StateT.run w' s' with ⟨a', t'⟩
  simp only [hs, hs'] at hvalue halike hmoves
  subst hvalue
  obtain ⟨hvalue', halike', hmoves'⟩ := hf a' t t' hs halike
  have hrun : StateT.run (w >>= f) s = StateT.run (f a') t := by
    rw [StateT.run_bind, hs]
    rfl
  have hrun' : StateT.run (w' >>= f') s' = StateT.run (f' a') t' := by
    rw [StateT.run_bind, hs']
    rfl
  refine ⟨?_, ?_, ?_⟩
  · rw [hrun, hrun', hvalue']
  · rwa [hrun, hrun']
  · rw [hrun]
    exact trans_of R hmoves hmoves'

/-- Both pieces of work go on with the state that they find. -/
theorem get_bind {g g' : σ → StateM σ β} (h : Agree A R s s' (g s) (g' s')) :
    Agree A R s s' (MonadState.get >>= g) (MonadState.get >>= g') :=
  ⟨h.value, h.alike, h.moves⟩

theorem set {t t' : σ} (halike : A t t') (hmoves : R s t) :
    Agree A R s s' (MonadStateOf.set t : StateM σ PUnit) (MonadStateOf.set t') :=
  ⟨rfl, halike, hmoves⟩

end States

section Failing

variable {w w' : ExceptT ε (StateM σ) α} {f f' : α → ExceptT ε (StateM σ) β}

theorem of_outcome (hvalue : outcome w' s' = outcome w s) (halike : A (after w s) (after w' s'))
    (hmoves : R s (after w s)) : Agree A R s s' (ExceptT.run w) (ExceptT.run w') :=
  ⟨hvalue, halike, hmoves⟩

theorem getE_bind {g g' : σ → ExceptT ε (StateM σ) β}
    (h : Agree A R s s' (ExceptT.run (g s)) (ExceptT.run (g' s'))) :
    Agree A R s s' (ExceptT.run (MonadState.get >>= g)) (ExceptT.run (MonadState.get >>= g')) :=
  ⟨h.value, h.alike, h.moves⟩

theorem modifyE {g g' : σ → σ} (halike : A (g s) (g' s')) (hmoves : R s (g s)) :
    Agree A R s s' (ExceptT.run (modify g : ExceptT ε (StateM σ) PUnit))
      (ExceptT.run (modify g' : ExceptT ε (StateM σ) PUnit)) :=
  of_outcome rfl halike hmoves

theorem setE {t t' : σ} (halike : A t t') (hmoves : R s t) :
    Agree A R s s' (ExceptT.run (MonadStateOf.set t : ExceptT ε (StateM σ) PUnit))
      (ExceptT.run (MonadStateOf.set t' : ExceptT ε (StateM σ) PUnit)) :=
  of_outcome rfl halike hmoves

theorem pureE [Std.Refl R] (a : α) (h : A s s') :
    Agree A R s s' (ExceptT.run (Pure.pure a : ExceptT ε (StateM σ) α))
      (ExceptT.run (Pure.pure a)) :=
  of_outcome rfl h (refl_of R s)

theorem throwE [Std.Refl R] (e : ε) (h : A s s') :
    Agree A R s s' (ExceptT.run (MonadExcept.throw e : ExceptT ε (StateM σ) α))
      (ExceptT.run (MonadExcept.throw e)) :=
  of_outcome rfl h (refl_of R s)

/-- Both pieces of work go on if the first step did not fail. -/
theorem bindE [IsTrans σ R] (hw : Agree A R s s' (ExceptT.run w) (ExceptT.run w'))
    (hf : ∀ a t t', outcome w s = .ok a → after w s = t → A t t' →
      Agree A R t t' (ExceptT.run (f a)) (ExceptT.run (f' a))) :
    Agree A R s s' (ExceptT.run (w >>= f)) (ExceptT.run (w' >>= f')) := by
  obtain ⟨hvalue, halike, hmoves⟩ := hw
  change outcome w' s' = outcome w s at hvalue
  change A (after w s) (after w' s') at halike
  change R s (after w s) at hmoves
  rcases hs : outcome w s with e | a
  · rw [hs] at hvalue
    refine of_outcome ?_ ?_ ?_
    · rw [outcome_bind_error hs, outcome_bind_error hvalue]
    · rwa [after_bind_error hs, after_bind_error hvalue]
    · rwa [after_bind_error hs]
  · rw [hs] at hvalue
    obtain ⟨hvalue', halike', hmoves'⟩ := hf a _ _ hs rfl halike
    refine of_outcome ?_ ?_ ?_
    · rw [outcome_bind_ok hs, outcome_bind_ok hvalue]
      exact hvalue'
    · rw [after_bind_ok hs, after_bind_ok hvalue]
      exact halike'
    · rw [after_bind_ok hs]
      exact trans_of R hmoves hmoves'

/-- Both pieces of work go on after a look that changes nothing and has the same result. -/
theorem look_bindE [Std.Refl R] {result : Except ε α} (h : A s s')
    (hw : outcome w s = result ∧ after w s = s) (hw' : outcome w' s' = result ∧ after w' s' = s')
    (hf : ∀ a, result = .ok a → Agree A R s s' (ExceptT.run (f a)) (ExceptT.run (f' a))) :
    Agree A R s s' (ExceptT.run (w >>= f)) (ExceptT.run (w' >>= f')) := by
  rcases result with e | a
  · refine of_outcome ?_ ?_ ?_
    · rw [outcome_bind_error hw.1, outcome_bind_error hw'.1]
    · rwa [after_bind_error hw.1, after_bind_error hw'.1, hw.2, hw'.2]
    · rw [after_bind_error hw.1, hw.2]
      exact refl_of R s
  · obtain ⟨hvalue, halike, hmoves⟩ := hf a rfl
    refine of_outcome ?_ ?_ ?_
    · rw [outcome_bind_ok hw.1, outcome_bind_ok hw'.1, hw.2, hw'.2]
      exact hvalue
    · rw [after_bind_ok hw.1, after_bind_ok hw'.1, hw.2, hw'.2]
      exact halike
    · rw [after_bind_ok hw.1, hw.2]
      exact hmoves

theorem throw_bindE [Std.Refl R] (e : ε) (h : A s s') :
    Agree A R s s' (ExceptT.run ((MonadExcept.throw e : ExceptT ε (StateM σ) α) >>= f))
      (ExceptT.run ((MonadExcept.throw e : ExceptT ε (StateM σ) α) >>= f')) :=
  look_bindE h ⟨rfl, rfl⟩ ⟨rfl, rfl⟩ fun _ ha => absurd ha (by simp)

end Failing

end Agree

end ReviewMentor.Effect
