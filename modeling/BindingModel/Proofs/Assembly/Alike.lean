import BindingModel.Proofs.Assembly.Agreement
import BindingModel.Proofs.Assembly.Outcome

/-! Assemblies side by side, by rules that differ only in what an assembly does not read. -/
namespace BindingModel
open Api Header

namespace Assembly

/-- Both states are the same, but for what is known of entries and not read. -/
def Alike (s t : State) : Prop := ∃ db, s.db.SameRules db ∧ t = { s with db }

/-- Both give the same and lead to states that are alike. -/
def GiveAlike {α : Type} (r r' : α × State) : Prop := r.1 = r'.1 ∧ Alike r.2 r'.2

theorem GiveAlike.cases {α : Type} {r r' : α × State} (h : GiveAlike r r') :
    ∃ a u v, r = (a, u) ∧ r' = (a, v) ∧ Alike u v := by
  obtain ⟨a, u⟩ := r
  obtain ⟨b, v⟩ := r'
  obtain ⟨rfl, huv⟩ := h
  exact ⟨a, u, v, rfl, rfl, huv⟩

namespace Alike
variable {s t : State}

theorem rules (h : Alike s t) : s.db.SameRules t.db := by
  obtain ⟨db, hdb, rfl⟩ := h
  exact hdb

/-- What does not depend on the rules is the same. -/
theorem read {α : Type} (h : Alike s t) {f : State → α}
    (hf : ∀ (s : State) (db : Database), f { s with db } = f s) : f s = f t := by
  obtain ⟨db, hdb, rfl⟩ := h
  exact (hf s db).symm

/-- What neither depends on the rules nor changes them leaves states alike. -/
theorem write (h : Alike s t) {f : State → State}
    (hf : ∀ (s : State) (db : Database), f { s with db } = { f s with db }) :
    Alike (f s) (f t) := by
  obtain ⟨db, hdb, rfl⟩ := h
  have hkept : (f s).db = s.db := (congrArg State.db (hf s s.db) :)
  exact ⟨db, hkept ▸ hdb, hf s db⟩

theorem store (h : Alike s t) : s.store = t.store := h.read fun _ _ => rfl

theorem registry (h : Alike s t) : s.registry = t.registry := h.read fun _ _ => rfl

/-! ### What is read -/

theorem lookup (h : Alike s t) (env : Env) : (s.lookup env).Agrees (t.lookup env) := by
  obtain ⟨db, hdb, rfl⟩ := h
  exact ⟨hdb, rfl, rfl, fun _ => rfl, fun _ => rfl, rfl, rfl, rfl⟩

theorem draft (h : Alike s t) (env : Env) (path : List String) (class? : Option ClassId) :
    Draft.Agrees ⟨s.lookup env, path, class?⟩ ⟨t.lookup env, path, class?⟩ where
  lookup := h.lookup env
  isLive := congrArg ClassStore.isLive h.store
  path := rfl
  class? := rfl
  fields := fun i _ => congrArg (fun c : ClassStore => (c.get i).fields) h.store

theorem modsOf (h : Alike s t) : s.store.modsOf s.db = t.store.modsOf t.db :=
  ClassStore.modsOf_congr (congrArg _ h.store)
    (fun i => congrArg (fun c : ClassStore => (c.get i).entry) h.store) h.rules

theorem isRemoved (h : Alike s t) : s.store.isRemoved s.db = t.store.isRemoved t.db := by
  funext f
  unfold ClassStore.isRemoved
  rw [h.modsOf]

theorem findClass? (h : Alike s t) (env : Env) : s.findClass? env = t.findClass? env := by
  have hfind := (h.lookup env).findClass?
  obtain ⟨db, hdb, rfl⟩ := h
  funext name context?
  unfold State.findClass?
  rw [hfind]

theorem classOf? (h : Alike s t) : s.classOf? = t.classOf? := h.read fun _ _ => rfl

/-! ### What is written -/

theorem foldl {α : Type} {f g : State → α → State} (h : Alike s t) {l : List α}
    (hf : ∀ s t, Alike s t → ∀ a ∈ l, Alike (f s a) (g t a)) :
    Alike (l.foldl f s) (l.foldl g t) := by
  induction l generalizing s t with
  | nil => exact h
  | cons a l ih =>
    exact ih (hf s t h a List.mem_cons_self) fun s t h b hb =>
      hf s t h b (List.mem_cons_of_mem a hb)

theorem warn (h : Alike s t) (w : Warning) : Alike (s.warn w) (t.warn w) :=
  h.write (f := (·.warn w)) fun _ _ => rfl

theorem warnAll (h : Alike s t) (ws : List Warning) : Alike (s.warnAll ws) (t.warnAll ws) :=
  h.foldl fun _ _ h w _ => h.warn w

theorem warnIf (h : Alike s t) (b : Bool) (w : Warning) : Alike (s.warnIf b w) (t.warnIf b w) := by
  unfold State.warnIf
  split
  · exact h.warn w
  · exact h

theorem reject (h : Alike s t) (c : RejectCategory) (r : RejectRecord) :
    Alike (s.reject c r) (t.reject c r) :=
  h.write (f := (·.reject c r)) fun _ _ => rfl

theorem createClass (h : Alike s t) (c : BoundClass) :
    GiveAlike (s.createClass c) (t.createClass c) := by
  obtain ⟨db, hdb, rfl⟩ := h
  exact ⟨rfl, db, hdb, rfl⟩

theorem modifyClass (h : Alike s t) (i : ClassId) (f : BoundClass → BoundClass) :
    Alike (s.modifyClass i f) (t.modifyClass i f) :=
  h.write (f := (·.modifyClass i f)) fun _ _ => rfl

theorem modifyDatabase (h : Alike s t) {f g : Database → Database}
    (hf : (f s.db).SameRules (g t.db)) : Alike (s.modifyDatabase f) (t.modifyDatabase g) := by
  obtain ⟨db, hdb, rfl⟩ := h
  exact ⟨g db, hf, rfl⟩

theorem applyInclude (h : Alike s t) (env : Env) (e : Entry) (file? : Option String) :
    Alike (s.applyInclude env e file?) (t.applyInclude env e file?) := by
  unfold State.applyInclude
  split
  · exact h.modifyDatabase (h.rules.changed (.setInclude _ e _) (.setInclude _ e _))
  · exact h

theorem addClass (h : Alike s t) (i : ClassId) : Alike (s.addClass i) (t.addClass i) := by
  refine h.write (f := (·.addClass i)) fun s db => ?_
  unfold State.addClass
  dsimp only
  split
  · split <;> rfl
  · split <;> rfl
  · rfl

end Alike

/-! ### Runs -/

/-- Both runs give the same or fail alike, and end in states that are alike. -/
def RunAlike {α : Type} (m m' : Build α) (s t : State) : Prop :=
  match m s, m' t with
  | .ok a s', .ok b t' => a = b ∧ Alike s' t'
  | .error e s', .error e' t' => e = e' ∧ Alike s' t'
  | _, _ => False

namespace RunAlike
variable {α β : Type} {s t : State}

theorem pure (h : Alike s t) (a : α) : RunAlike (pure a) (pure a) s t := ⟨rfl, h⟩

theorem throw (h : Alike s t) (e : Error) : RunAlike (throw e : Build α) (throw e) s t := ⟨rfl, h⟩

theorem set {s' t' : State} (h : Alike s' t') : RunAlike (set s') (set t') s t := ⟨rfl, h⟩

theorem modify {f g : State → State} (h : Alike (f s) (g t)) :
    RunAlike (modify f) (modify g) s t :=
  ⟨rfl, h⟩

theorem get_bind {f g : State → Build β} (h : RunAlike (f s) (g t) s t) :
    RunAlike (get >>= f) (get >>= g) s t :=
  h

theorem bind {m m' : Build α} {f g : α → Build β} (hm : RunAlike m m' s t)
    (hf : ∀ a s' t', Alike s' t' → RunAlike (f a) (g a) s' t') :
    RunAlike (m >>= f) (m' >>= g) s t := by
  unfold RunAlike at hm
  cases h : m s with
  | ok a s' =>
    cases h' : m' t with
    | ok b t' =>
      rw [h, h'] at hm
      obtain ⟨rfl, halike⟩ := hm
      have hrest := hf a s' t' halike
      unfold RunAlike at hrest ⊢
      rwa [Build.bind_of_ok h, Build.bind_of_ok h']
    | error e t' =>
      rw [h, h'] at hm
      exact hm.elim
  | error e s' =>
    cases h' : m' t with
    | ok b t' =>
      rw [h, h'] at hm
      exact hm.elim
    | error e' t' =>
      rw [h, h'] at hm
      unfold RunAlike
      rwa [Build.bind_of_error h, Build.bind_of_error h']

theorem forM {f g : α → Build PUnit} (h : Alike s t) {l : List α}
    (hf : ∀ s t, Alike s t → ∀ a ∈ l, RunAlike (f a) (g a) s t) :
    RunAlike (l.forM f) (l.forM g) s t := by
  induction l generalizing s t with
  | nil => exact .pure h _
  | cons a l ih =>
    refine (hf s t h a List.mem_cons_self).bind fun _ s' t' h' => ?_
    exact ih h' fun s t h b hb => hf s t h b (List.mem_cons_of_mem a hb)

end RunAlike
end Assembly
end BindingModel
