/-
OpenFido.Python.Exec — a Python statement as a function of the state that
completes with a value or raises.

A statement runs in `PyM ε σ = ExceptT ε (StateM σ)`: it ends with a value
or with an exception of type `ε`, and what it changed before raising stays
changed, which is what an `except` handler or a `finally` block then sees.
`run` gives both the ending and the state; the lemmas below are the only
place the monad is unfolded, and every later module computes with them.

* `tryCatch` is `try: … except …:`; the handler picks the classes it
  catches and raises the others again;
* `withFinally` is `try: … finally: …`: the block runs after the body on
  both paths, and an exception of the body is raised again after it
  (`run_withFinally_state`: the state is the block's run from the body's).
-/

namespace OpenFido.Python

/-- A Python statement over the state `σ`, raising exceptions of type `ε`. -/
abbrev PyM (ε σ : Type) := ExceptT ε (StateM σ)

/-- A statement run from a state: how it ended, and the state it left. -/
def run {ε σ α : Type} (m : PyM ε σ α) (s : σ) : Except ε α × σ := m.run.run s

section RunLemmas

variable {ε σ α β : Type}

@[simp] theorem run_pure (a : α) (s : σ) : run (pure a : PyM ε σ α) s = (.ok a, s) := rfl

@[simp] theorem run_throw (e : ε) (s : σ) : run (throw e : PyM ε σ α) s = (.error e, s) := rfl

@[simp] theorem run_get (s : σ) : run (get : PyM ε σ σ) s = (.ok s, s) := rfl

@[simp] theorem run_modify (f : σ → σ) (s : σ) :
    run (modify f : PyM ε σ Unit) s = (.ok (), f s) := rfl

theorem run_bind (m : PyM ε σ α) (f : α → PyM ε σ β) (s : σ) :
    run (m >>= f) s = match run m s with
      | (.ok a, s') => run (f a) s'
      | (.error e, s') => (.error e, s') := by
  unfold run
  rcases h : m.run.run s with ⟨_ | _, s'⟩ <;>
    simp only [ExceptT.run_bind, StateT.run_bind, h] <;> rfl

theorem run_tryCatch (m : PyM ε σ α) (h : ε → PyM ε σ α) (s : σ) :
    run (tryCatch m h) s = match run m s with
      | (.ok a, s') => (.ok a, s')
      | (.error e, s') => run (h e) s' := by
  unfold run
  show (ExceptT.tryCatch m h).run.run s = _
  have : ∀ p, m.run.run s = p → (ExceptT.tryCatch m h).run.run s = match p with
      | (.ok a, s') => (.ok a, s')
      | (.error e, s') => (h e).run.run s' := by
    rintro ⟨_ | _, s'⟩ hp <;>
      simp only [ExceptT.tryCatch, ExceptT.mk, StateT.run_bind, ExceptT.run] at hp ⊢ <;>
      rw [hp] <;> rfl
  exact this _ rfl

/-- A bind that returned: its first statement returned too, and the rest
ran from the state it left. -/
theorem run_bind_eq_ok {m : PyM ε σ α} {f : α → PyM ε σ β} {s : σ} {b : β}
    (h : (run (m >>= f) s).1 = .ok b) :
    ∃ a s', run m s = (.ok a, s') ∧ run (m >>= f) s = run (f a) s' := by
  rw [run_bind] at h ⊢
  rcases hm : run m s with ⟨e | a, s'⟩
  · rw [hm] at h
    cases h
  · exact ⟨a, s', rfl, rfl⟩

end RunLemmas

/-- `try: body finally: fin`. -/
def withFinally {ε σ : Type} (body fin : PyM ε σ Unit) : PyM ε σ Unit := do
  tryCatch body fun e => do fin; throw e
  fin

/-- Whatever the body does, the `finally` block runs from the state the
body left, and its state is the statement's. -/
theorem run_withFinally_state {ε σ : Type} (body fin : PyM ε σ Unit) (s : σ) :
    (run (withFinally body fin) s).2 = (run fin (run body s).2).2 := by
  simp only [withFinally, run_bind, run_tryCatch]
  rcases run body s with ⟨_ | _, s1⟩ <;> simp only [run_bind]
  rcases run fin s1 with ⟨_ | _, s2⟩ <;> rfl

/-- A `try … finally` that returned: the body and the block both returned. -/
theorem run_withFinally_eq_ok {ε σ : Type} {body fin : PyM ε σ Unit} {s : σ}
    (h : (run (withFinally body fin) s).1 = .ok ()) :
    (run body s).1 = .ok () ∧ (run fin (run body s).2).1 = .ok () := by
  simp only [withFinally, run_bind, run_tryCatch] at h
  rcases hb : run body s with ⟨_ | _, s1⟩ <;> rw [hb] at h <;> simp only [run_bind] at h
  · rcases hf : run fin s1 with ⟨_ | _, s2⟩ <;> rw [hf] at h <;> simp at h
  · exact ⟨rfl, h⟩

end OpenFido.Python
