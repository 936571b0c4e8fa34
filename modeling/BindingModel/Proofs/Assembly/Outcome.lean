import BindingModel.Assembly.Assemble
import BindingModel.Proofs.Error
import Mathlib.Order.Defs.Unbundled

/-! What every outcome of some steps has in common, put together from the steps. -/
namespace BindingModel.Assembly

/-- From the state `s`, the steps lead by `r` to their last state, and where they fail `fails` holds
of the error and that state. -/
def Outcome {α : Type} (r : State → State → Prop) (fails : Error → State → Prop) (m : Build α)
    (s : State) : Prop :=
  match m s with
  | .ok _ s' => r s s'
  | .error e s' => r s s' ∧ fails e s'

namespace Build
variable {α β : Type} {m : Build α} {f : α → Build β} {s s' s'' : State}

theorem bind_of_ok {a : α} (h : m s = .ok a s') : (m >>= f) s = f a s' := by
  show EStateM.bind m f s = _
  simp only [EStateM.bind, h]

theorem bind_of_error {e : Error} (h : m s = .error e s') : (m >>= f) s = .error e s' := by
  show EStateM.bind m f s = _
  simp only [EStateM.bind, h]

theorem bind_eq_ok {b : β} :
    (m >>= f) s = .ok b s'' ↔ ∃ a s', m s = .ok a s' ∧ f a s' = .ok b s'' := by
  constructor
  · intro hrun
    cases h : m s with
    | ok a s' => exact ⟨a, s', rfl, by rwa [bind_of_ok h] at hrun⟩
    | error e s' =>
      rw [bind_of_error h] at hrun
      cases hrun
  · intro h
    obtain ⟨a, s', h, hrun⟩ := h
    rwa [bind_of_ok h]

/-- The state in which some steps end or fail. -/
def after (m : Build α) (s : State) : State :=
  match m s with
  | .ok _ t => t
  | .error _ t => t

theorem after_of_ok {a : α} (h : m s = .ok a s') : after m s = s' := by
  unfold after
  rw [h]

theorem after_get_bind (f : State → Build α) (s : State) : after (get >>= f) s = after (f s) s :=
  rfl

theorem after_forM_cons (m : α → Build PUnit) (a : α) (l : List α) (s : State) :
    after ((a :: l).forM m) s = match m a s with
      | .ok _ t => after (l.forM m) t
      | .error _ t => t := by
  show after (m a >>= fun _ => l.forM m) s = _
  unfold after
  cases h : m a s with
  | ok x t => rw [bind_of_ok h]
  | error e t => rw [bind_of_error h]

/-- Where the steps from `s` succeed, `q` holds of what they return and of their last state. -/
def Ensures (q : α → State → Prop) (m : Build α) (s : State) : Prop :=
  ∀ a t, m s = .ok a t → q a t

namespace Ensures
variable {q : α → State → Prop}

theorem pure {a : α} (h : q a s) : Ensures q (pure a) s := by
  intro _ _ hrun
  cases hrun
  exact h

theorem modify_bind {f : PUnit → Build α} {g : State → State} (h : Ensures q (f ⟨⟩) (g s)) :
    Ensures q (modify g >>= f) s :=
  h

theorem modify {q : PUnit → State → Prop} {f : State → State} (h : q ⟨⟩ (f s)) :
    Ensures q (modify f) s := by
  intro _ _ hrun
  cases hrun
  exact h

theorem get_bind {f : State → Build α} (h : Ensures q (f s) s) : Ensures q (get >>= f) s := h

theorem set_bind {f : PUnit → Build α} (h : Ensures q (f ⟨⟩) s') :
    Ensures q (set s' >>= f) s :=
  h

theorem bind {q : β → State → Prop} {r : α → State → Prop} (hm : Ensures r m s)
    (hf : ∀ a t, r a t → Ensures q (f a) t) : Ensures q (m >>= f) s := by
  intro b u hrun
  obtain ⟨a, t, hfirst, hrest⟩ := bind_eq_ok.mp hrun
  exact hf a t (hm a t hfirst) b u hrest

theorem mono {r : α → State → Prop} (h : Ensures r m s) (hq : ∀ a t, r a t → q a t) :
    Ensures q m s :=
  fun a t hrun => hq a t (h a t hrun)

/-- What follows steps that return nothing starts where they end. -/
theorem bind_after {q : β → State → Prop} {r : Unit → State → Prop} {m : Build Unit}
    {f : Unit → Build β} (hm : Ensures r m s)
    (hf : r () (m.after s) → Ensures q (f ()) (m.after s)) : Ensures q (m >>= f) s := by
  intro b u hrun
  obtain ⟨_, t, hfirst, hrest⟩ := bind_eq_ok.mp hrun
  rw [after_of_ok hfirst] at hf
  exact hf (hm () t hfirst) b u hrest

end Ensures
end Build

namespace Outcome
variable {r : State → State → Prop} {fails : Error → State → Prop} {α β : Type} {s : State}

theorem of_ok {m : Build α} {a : α} {s' : State} (h : Outcome r fails m s)
    (hm : m s = .ok a s') : r s s' := by
  unfold Outcome at h
  rwa [hm] at h

theorem ensures {m : Build α} (h : Outcome r fails m s) : Build.Ensures (fun _ t => r s t) m s :=
  fun _ _ => h.of_ok

theorem of_error {m : Build α} {e : Error} {s' : State} (h : Outcome r fails m s)
    (hm : m s = .error e s') : r s s' ∧ fails e s' := by
  unfold Outcome at h
  rwa [hm] at h

theorem mono {fails' : Error → State → Prop} {m : Build α} (h : Outcome r fails m s)
    (hf : ∀ e t, fails e t → fails' e t) : Outcome r fails' m s := by
  unfold Outcome at h ⊢
  split at h
  · exact h
  · exact h.imp_right (hf _ _)

theorem set {s' : State} (h : r s s') : Outcome r fails (set s') s := h

theorem modify {f : State → State} (h : r s (f s)) : Outcome r fails (modify f) s := h

theorem get_bind {f : State → Build β} (h : Outcome r fails (f s) s) :
    Outcome r fails (get >>= f) s := h

section
variable [Std.Refl r]

theorem pure (a : α) : Outcome r fails (pure a) s := refl_of r s

theorem throw {e : Error} (h : fails e s) : Outcome r fails (throw e : Build α) s :=
  ⟨refl_of r s, h⟩

end

section
variable [IsTrans State r]

theorem bind {m : Build α} {f : α → Build β} (hm : Outcome r fails m s)
    (hf : ∀ a s', m s = .ok a s' → Outcome r fails (f a) s') : Outcome r fails (m >>= f) s := by
  unfold Outcome at hm
  cases h : m s with
  | error e s' =>
    rw [h] at hm
    unfold Outcome
    rwa [Build.bind_of_error h]
  | ok a s' =>
    rw [h] at hm
    have hrest := hf a s' h
    unfold Outcome at hrest ⊢
    rw [Build.bind_of_ok h]
    split at hrest
    · exact trans_of r hm hrest
    · exact ⟨trans_of r hm hrest.1, hrest.2⟩

/-- Afterwards the steps go on whatever happened before. -/
theorem andThen {m : Build α} {f : α → Build β} (hm : Outcome r fails m s)
    (hf : ∀ a s', Outcome r fails (f a) s') : Outcome r fails (m >>= f) s :=
  hm.bind fun a s' _ => hf a s'

/-- Every element may count on what happened before. -/
theorem forM [Std.Refl r] {l : List α} {f : α → Build PUnit}
    (h : ∀ a ∈ l, ∀ t, r s t → Outcome r fails (f a) t) : Outcome r fails (l.forM f) s := by
  induction l generalizing s with
  | nil => exact .pure _
  | cons a l ih =>
    show Outcome r fails (f a >>= fun _ => l.forM f) s
    have hhead := h a List.mem_cons_self s (refl_of r s)
    refine hhead.bind fun _ t hrun => ih fun b hb u htu => ?_
    exact h b (List.mem_cons_of_mem a hb) u (trans_of r (hhead.of_ok hrun) htu)

end

end Outcome

/-! ### The assembly as a run -/

/-- The surroundings of an assembly. -/
def Env.make (config : Config) (header : Header) : Env :=
  ⟨config, header, .make config.headerPaths config.globalHeader?⟩

/-- A successful run by its stages. -/
theorem run_stages {env : Env} {classes : List Api.ClassId} {s₀ s : State}
    (h : run env s₀ = .ok classes s) : ∃ s₁ s₂ s₃ s₄,
      declareAll env s₀ = .ok () s₁ ∧ fillAll env s₁ = .ok () s₂ ∧
      (complete env s₂).store.sortClasses (complete env s₂).registry.members = .ok classes ∧
      orderInner classes (linkCopies classes (complete env s₂)) = .ok () s₃ ∧
      fillGlobalAdded env s₃ = .ok () s₄ ∧ s = settlePoliciesAll classes s₄ := by
  unfold run at h
  obtain ⟨_, s₁, hdeclare, h⟩ := Build.bind_eq_ok.mp h
  obtain ⟨_, s₂, hfill, h⟩ := Build.bind_eq_ok.mp h
  obtain ⟨_, s', hcomplete, h⟩ := Build.bind_eq_ok.mp h
  cases hcomplete
  obtain ⟨_, s', hget, h⟩ := Build.bind_eq_ok.mp h
  cases hget
  cases hsort : (complete env s₂).store.sortClasses (complete env s₂).registry.members with
  | error e =>
    rw [hsort] at h
    cases h
  | ok sorted =>
    rw [hsort] at h
    obtain ⟨_, s', hlink, h⟩ := Build.bind_eq_ok.mp h
    cases hlink
    obtain ⟨_, s₃, hinner, h⟩ := Build.bind_eq_ok.mp h
    obtain ⟨_, s₄, hadded, h⟩ := Build.bind_eq_ok.mp h
    obtain ⟨_, s', hsettle, h⟩ := Build.bind_eq_ok.mp h
    cases hsettle
    cases h
    exact ⟨s₁, s₂, s₃, s₄, hdeclare, hfill, hsort, hinner, hadded, rfl⟩

theorem assemble_eq (config : Config) (header : Header) (db : Database) :
    assemble config header db = match run (.make config header) { db } with
      | .ok classes s => ⟨.ok (s.model classes), s.warnings.reverse, s.db⟩
      | .error e s => ⟨.error e, s.warnings.reverse, s.db⟩ :=
  rfl

theorem result_assemble (config : Config) (header : Header) (db : Database) :
    (assemble config header db).result = match run (.make config header) { db } with
      | .ok classes s => .ok (s.model classes)
      | .error e _ => .error e := by
  rw [assemble_eq]
  cases run (.make config header) { db } <;> rfl

theorem db_assemble (config : Config) (header : Header) (db : Database) :
    (assemble config header db).db = match run (.make config header) { db } with
      | .ok _ s => s.db
      | .error _ s => s.db := by
  rw [assemble_eq]
  cases run (.make config header) { db } <;> rfl

theorem assemble_eq_ok {config : Config} {header : Header} {db : Database} {m : Api.Model} :
    (assemble config header db).result = .ok m ↔
      ∃ classes s, run (.make config header) { db } = .ok classes s ∧ m = s.model classes := by
  rw [result_assemble]
  cases run (.make config header) { db } with
  | ok classes s =>
    constructor
    · intro h
      exact ⟨classes, s, rfl, (Except.ok.inj h).symm⟩
    · intro h
      obtain ⟨_, _, h, rfl⟩ := h
      cases h
      rfl
  | error e s =>
    constructor
    · intro h
      cases h
    · intro h
      obtain ⟨_, _, h, -⟩ := h
      cases h

theorem assemble_eq_error {config : Config} {header : Header} {db : Database} {e : Error} :
    (assemble config header db).result = .error e ↔
      ∃ s, run (.make config header) { db } = .error e s := by
  rw [result_assemble]
  cases run (.make config header) { db } with
  | ok classes s =>
    constructor
    · intro h
      cases h
    · intro h
      obtain ⟨_, h⟩ := h
      cases h
  | error e s =>
    constructor
    · intro h
      exact ⟨s, by rw [Except.error.inj h]⟩
    · intro h
      obtain ⟨_, h⟩ := h
      cases h
      rfl

/-- A model can be shown to exist by running the assembly. -/
theorem exists_model_of_any {config : Config} {header : Header} {db : Database}
    {p : Api.Model → Bool} (h : (assemble config header db).result.toOption.any p = true) :
    ∃ m, (assemble config header db).result = .ok m ∧ p m = true :=
  Error.exists_ok_of_any h

end BindingModel.Assembly
