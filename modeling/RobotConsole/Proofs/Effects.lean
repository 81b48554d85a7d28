/-!
# Contracts of computations

A computation with failures changes its state whether it yields or fails. A `Contract` says what
change is allowed in either case. Allowed changes compose, so a contract that the parts of a
computation keep is kept by the whole (`Contract.Holds.bind`, `Contract.holds_forM`,
`Contract.Holds.tryCatch`): what a long action can do is read off its primitive steps.
-/

namespace RobotConsole

variable {ε σ α β : Type}

/-- The state that a computation leaves behind, whether it yields or fails. -/
def after (x : EStateM ε σ α) (s : σ) : σ :=
  match x.run s with
  | .ok _ t => t
  | .error _ t => t

theorem after_of_ok {x : EStateM ε σ α} {s t : σ} {a : α} (h : x.run s = .ok a t) :
    after x s = t := by
  unfold after
  rw [h]

theorem after_of_error {x : EStateM ε σ α} {s t : σ} {e : ε} (h : x.run s = .error e t) :
    after x s = t := by
  unfold after
  rw [h]

theorem after_bind_of_ok {x : EStateM ε σ α} {f : α → EStateM ε σ β} {s t : σ} {a : α}
    (h : x.run s = .ok a t) : after (x >>= f) s = after (f a) t := by
  unfold after
  rw [EStateM.run_bind, h]

theorem after_bind_of_error {x : EStateM ε σ α} {f : α → EStateM ε σ β} {s t : σ} {e : ε}
    (h : x.run s = .error e t) : after (x >>= f) s = t := by
  unfold after
  rw [EStateM.run_bind, h]

theorem after_bind_pure (x : EStateM ε σ α) (f : α → β) (s : σ) :
    after (x >>= fun a => pure (f a)) s = after x s := by
  unfold after
  rw [EStateM.run_bind]
  cases x.run s <;> rfl

theorem run_of_bind_ok {x : EStateM ε σ α} {f : α → EStateM ε σ β} {s t : σ} {b : β}
    (h : (x >>= f).run s = .ok b t) : ∃ a u, x.run s = .ok a u ∧ (f a).run u = .ok b t := by
  rw [EStateM.run_bind] at h
  cases hx : x.run s with
  | error e u =>
    rw [hx] at h
    cases h
  | ok a u =>
    rw [hx] at h
    exact ⟨a, u, rfl, h⟩

theorem run_tryCatch (x : EStateM ε σ α) (handle : ε → EStateM ε σ α) (s : σ) :
    (tryCatch x handle).run s =
      match x.run s with
      | .ok a t => .ok a t
      | .error e t => (handle e).run t := by
  show EStateM.tryCatch x handle s = _
  unfold EStateM.tryCatch EStateM.run
  cases x s <;> rfl

/-- What a computation may do to its state: `yields s t` when it ends well, `fails e s t` when it
fails with `e`. Doing nothing is allowed, and so is one allowed change after another. -/
structure Contract (ε σ : Type) where
  yields : σ → σ → Prop
  fails : ε → σ → σ → Prop
  refl : ∀ s, yields s s
  trans : ∀ {s t u}, yields s t → yields t u → yields s u
  fails_after : ∀ {e s t u}, yields s t → fails e t u → fails e s u

namespace Contract

/-- A computation keeps a contract from the state `s`. -/
def HoldsAt (c : Contract ε σ) (s : σ) (x : EStateM ε σ α) : Prop :=
  match x.run s with
  | .ok _ t => c.yields s t
  | .error e t => c.fails e s t

/-- A computation keeps a contract from every state. -/
def Holds (c : Contract ε σ) (x : EStateM ε σ α) : Prop :=
  ∀ s, c.HoldsAt s x

variable {c : Contract ε σ}

theorem HoldsAt.yields {x : EStateM ε σ α} {s t : σ} {a : α} (hx : c.HoldsAt s x)
    (h : x.run s = .ok a t) : c.yields s t := by
  unfold HoldsAt at hx
  rw [h] at hx
  exact hx

theorem HoldsAt.fails {x : EStateM ε σ α} {s t : σ} {e : ε} (hx : c.HoldsAt s x)
    (h : x.run s = .error e t) : c.fails e s t := by
  unfold HoldsAt at hx
  rw [h] at hx
  exact hx

/-- To keep a contract is to allow whichever outcome the run has. -/
theorem HoldsAt.of_outcomes {x : EStateM ε σ α} {s : σ}
    (hok : ∀ a t, x.run s = .ok a t → c.yields s t)
    (herr : ∀ e t, x.run s = .error e t → c.fails e s t) : c.HoldsAt s x := by
  unfold HoldsAt
  cases h : x.run s with
  | ok a t => exact hok a t h
  | error e t => exact herr e t h

theorem HoldsAt.of_ok {x : EStateM ε σ α} {s t : σ} {a : α} (h : x.run s = .ok a t)
    (hst : c.yields s t) : c.HoldsAt s x := by
  unfold HoldsAt
  rw [h]
  exact hst

theorem HoldsAt.bind {x : EStateM ε σ α} {f : α → EStateM ε σ β} {s : σ} (hx : c.HoldsAt s x)
    (hf : ∀ a t, x.run s = .ok a t → c.HoldsAt t (f a)) : c.HoldsAt s (x >>= f) := by
  unfold HoldsAt
  rw [EStateM.run_bind]
  cases hr : x.run s with
  | error e t => exact hx.fails hr
  | ok a t =>
    have hst : c.yields s t := hx.yields hr
    have hrest : c.HoldsAt t (f a) := hf a t hr
    cases hr' : (f a).run t with
    | ok b u =>
      simp only [hr']
      exact c.trans hst (hrest.yields hr')
    | error e u =>
      simp only [hr']
      exact c.fails_after hst (hrest.fails hr')

theorem Holds.bind {x : EStateM ε σ α} {f : α → EStateM ε σ β} (hx : c.Holds x)
    (hf : ∀ a, c.Holds (f a)) : c.Holds (x >>= f) :=
  fun s => (hx s).bind fun a t _ => hf a t

/-- Something done on a condition and then the rest, or the rest at once. -/
theorem holds_when {p : Prop} [Decidable p] {x rest : EStateM ε σ α}
    (hx : c.Holds rest → c.Holds x) (hrest : c.Holds rest) : c.Holds (if p then x else rest) := by
  split
  · exact hx hrest
  · exact hrest

/-- What is done with the state that was read need only be right in that state. -/
theorem holds_get_bind {f : σ → EStateM ε σ α} (hf : ∀ s, c.HoldsAt s (f s)) :
    c.Holds (get >>= f) :=
  fun s => hf s

theorem holds_pure (a : α) : c.Holds (pure a : EStateM ε σ α) :=
  fun s => c.refl s

/-- What only answers with something made of the answer of `x`. -/
theorem Holds.giving {x : EStateM ε σ α} {g : α → β} (hx : c.Holds x) :
    c.Holds (do return g (← x)) :=
  hx.bind fun _ => holds_pure _

theorem holds_get : c.Holds (get : EStateM ε σ σ) :=
  fun s => c.refl s

theorem holdsAt_set {s t : σ} (h : c.yields s t) : c.HoldsAt s (set t : EStateM ε σ PUnit) :=
  h

theorem holdsAt_set_bind {s t : σ} {f : PUnit → EStateM ε σ α} (h : c.yields s t)
    (hf : c.HoldsAt t (f ⟨⟩)) : c.HoldsAt s (set t >>= f) :=
  (holdsAt_set h).bind fun _ _ hr => by
    rw [EStateM.run_set] at hr
    injection hr with _ ht
    rw [← ht]
    exact hf

theorem holds_modify {f : σ → σ} (hf : ∀ s, c.yields s (f s)) :
    c.Holds (modify f : EStateM ε σ PUnit) :=
  fun s => hf s

theorem holds_throw {e : ε} (he : ∀ s, c.fails e s s) : c.Holds (throw e : EStateM ε σ α) :=
  fun s => he s

theorem holds_forM {f : α → EStateM ε σ PUnit} (xs : List α) (hf : ∀ a ∈ xs, c.Holds (f a)) :
    c.Holds (xs.forM f) := by
  induction xs with
  | nil => exact holds_pure _
  | cons a xs ih =>
    have ha : c.Holds (f a) := hf a List.mem_cons_self
    have hxs : c.Holds (xs.forM f) := ih fun b hb => hf b (List.mem_cons_of_mem a hb)
    exact ha.bind fun _ => hxs

theorem holds_mapM {f : α → EStateM ε σ β} (xs : List α) (hf : ∀ a, c.Holds (f a)) :
    c.Holds (xs.mapM f) := by
  induction xs with
  | nil => exact holds_pure _
  | cons a xs ih =>
    rw [List.mapM_cons]
    exact (hf a).bind fun _ => ih.giving

/-- What a handler makes of a failure is judged from where the computation started. -/
theorem Holds.tryCatch_of_outcomes {x : EStateM ε σ α} {handle : ε → EStateM ε σ α}
    (hx : c.Holds x)
    (hok : ∀ e s t a u, c.fails e s t → (handle e).run t = .ok a u → c.yields s u)
    (herr : ∀ e s t e' u, c.fails e s t → (handle e).run t = .error e' u → c.fails e' s u) :
    c.Holds (tryCatch x handle) := by
  intro s
  unfold HoldsAt
  rw [run_tryCatch]
  cases hr : x.run s with
  | ok a t => exact (hx s).yields hr
  | error e t =>
    have hst : c.fails e s t := (hx s).fails hr
    cases hr' : (handle e).run t with
    | ok b u =>
      simp only [hr']
      exact hok e s t b u hst hr'
    | error e' u =>
      simp only [hr']
      exact herr e s t e' u hst hr'

/-- A contract that allows a failed change as a change can be kept past the failure. -/
theorem Holds.tryCatch {x : EStateM ε σ α} {handle : ε → EStateM ε σ α}
    (recovers : ∀ {e s t}, c.fails e s t → c.yields s t) (hx : c.Holds x)
    (hh : ∀ e, c.Holds (handle e)) : c.Holds (tryCatch x handle) := by
  refine hx.tryCatch_of_outcomes ?_ ?_
  · intro e s t a u hst hrun
    exact c.trans (recovers hst) ((hh e t).yields hrun)
  · intro e s t e' u hst hrun
    exact c.fails_after (recovers hst) ((hh e t).fails hrun)

/-- Two contracts at once. -/
def and (c d : Contract ε σ) : Contract ε σ where
  yields s t := c.yields s t ∧ d.yields s t
  fails e s t := c.fails e s t ∧ d.fails e s t
  refl s := ⟨c.refl s, d.refl s⟩
  trans h₁ h₂ := ⟨c.trans h₁.1 h₂.1, d.trans h₁.2 h₂.2⟩
  fails_after h₁ h₂ := ⟨c.fails_after h₁.1 h₂.1, d.fails_after h₁.2 h₂.2⟩

theorem Holds.and {d : Contract ε σ} {x : EStateM ε σ α} (hc : c.Holds x) (hd : d.Holds x) :
    (c.and d).Holds x :=
  fun s => .of_outcomes (fun _ _ hrun => ⟨(hc s).yields hrun, (hd s).yields hrun⟩)
    fun _ _ hrun => ⟨(hc s).fails hrun, (hd s).fails hrun⟩

-- contracts are kept by rule from here on, never by running the computation
attribute [irreducible] HoldsAt

end Contract

end RobotConsole
