import BindingModel.Assembly.Assemble
import BindingModel.Proofs.Assembly.ArrayEdits
import BindingModel.Proofs.Assembly.Labels
import BindingModel.Proofs.Rule.Growth
import Mathlib.Data.List.Induction
import Mathlib.Order.Defs.Unbundled

/-! How an assembly changes its state, one change after another. Classes are created for entries of
the rules and keep what they were created with; every function is made for the class that it is put
in; the rules grow. -/
namespace BindingModel
open Api

namespace Api

/-- What a class is created with. -/
structure ClassHead where
  entry : Entry
  baseNames : List String
  templateParams : List Entry
  isTypedef : Bool

namespace BoundClass

def head (c : BoundClass) : ClassHead := ⟨c.entry, c.baseNames, c.templateParams, c.isTypedef⟩

/-- What links and marks put on a class leave alone. -/
def core (c : BoundClass) : ClassHead × List Function × List Field :=
  (c.head, c.functions, c.fields)

theorem entry_eq_of_head {c d : BoundClass} (h : c.head = d.head) : c.entry = d.entry :=
  congrArg ClassHead.entry h

theorem head_eq_of_core {c d : BoundClass} (h : c.core = d.core) : c.head = d.head :=
  congrArg Prod.fst h

theorem functions_eq_of_core {c d : BoundClass} (h : c.core = d.core) :
    c.functions = d.functions :=
  congrArg (·.2.1) h

theorem fields_eq_of_core {c d : BoundClass} (h : c.core = d.core) : c.fields = d.fields :=
  congrArg (·.2.2) h

theorem core_addInterface (c : BoundClass) (i : ClassId) : (c.addInterface i).core = c.core := by
  unfold addInterface
  split <;> rfl

theorem core_addInterfaces (c : BoundClass) (l : List ClassId) :
    (l.foldl (·.addInterface ·) c).core = c.core := by
  induction l generalizing c with
  | nil => rfl
  | cons i l ih => rw [List.foldl_cons, ih, core_addInterface]

theorem core_addExternalConversion (c : BoundClass) (r : FunctionRef) :
    (c.addExternalConversion r).core = c.core := by
  unfold addExternalConversion
  split <;> rfl

end BoundClass

/-- The types that a function mentions: what it returns and what it takes. -/
def Function.types (f : Function) : List BoundType := f.returnType?.toList ++ f.args.map (·.type)

/-- The function before its policies are settled. -/
def Function.unsettled (f : Function) : Function := { f with settled? := none }

/-- Members may have been added behind those that a class had, which are the same but for their
policies. -/
structure BoundClass.MembersKept (c d : BoundClass) : Prop where
  functions : c.functions.map (·.unsettled) <+: d.functions.map (·.unsettled)
  fields : c.fields <+: d.fields

namespace BoundClass.MembersKept

theorem refl (c : BoundClass) : c.MembersKept c := ⟨List.prefix_rfl, List.prefix_rfl⟩

theorem trans {c d e : BoundClass} (h : c.MembersKept d) (k : d.MembersKept e) :
    c.MembersKept e :=
  ⟨h.functions.trans k.functions, h.fields.trans k.fields⟩

theorem of_core {c d : BoundClass} (h : d.core = c.core) : c.MembersKept d :=
  ⟨functions_eq_of_core h ▸ List.prefix_rfl, fields_eq_of_core h ▸ List.prefix_rfl⟩

theorem addFunction (c : BoundClass) (f : Function) : c.MembersKept (c.addFunction f) :=
  ⟨(List.prefix_append c.functions [f]).map _, List.prefix_rfl⟩

theorem addField (c : BoundClass) (f : Field) : c.MembersKept (c.addField f) :=
  ⟨List.prefix_rfl, List.prefix_append c.fields [f]⟩

theorem getElem?_of_prefix {α : Type} {l l' : List α} (h : l <+: l') {k : Nat} {a : α}
    (ha : l[k]? = some a) : l'[k]? = some a := by
  obtain ⟨rest, rfl⟩ := h
  obtain ⟨hlt, -⟩ := List.getElem?_eq_some_iff.mp ha
  rw [List.getElem?_append_left hlt, ha]

theorem unsettled {c d : BoundClass} (h : c.MembersKept d) {k : Nat} {f : Function}
    (hf : c.functions[k]? = some f) :
    ∃ g, d.functions[k]? = some g ∧ g.unsettled = f.unsettled := by
  have hmapped : (c.functions.map (·.unsettled))[k]? = some f.unsettled := by
    rw [List.getElem?_map, hf, Option.map_some]
  have hkept := getElem?_of_prefix h.functions hmapped
  rw [List.getElem?_map] at hkept
  exact Option.map_eq_some_iff.mp hkept

theorem function {c d : BoundClass} (h : c.MembersKept d) {k : Nat} {f : Function}
    (hf : c.functions[k]? = some f) : ∃ g, d.functions[k]? = some g ∧ g.types = f.types := by
  obtain ⟨g, hg, hsame⟩ := h.unsettled hf
  have htypes : g.unsettled.types = f.unsettled.types := congrArg Function.types hsame
  exact ⟨g, hg, htypes⟩

theorem field {c d : BoundClass} (h : c.MembersKept d) {k : Nat} {f : Field}
    (hf : c.fields[k]? = some f) : d.fields[k]? = some f :=
  getElem?_of_prefix h.fields hf

end BoundClass.MembersKept

/-- The placeholders of the template parameters have their positions as ordinals. -/
def BoundClass.ParamsNumbered (c : BoundClass) : Prop :=
  ∀ (k : Nat) (p : Entry), c.templateParams[k]? = some p → p.ordinal? = some k

namespace BoundClass.ParamsNumbered
variable {c : BoundClass}

theorem of_nil (h : c.templateParams = []) : c.ParamsNumbered := by
  intro k p hp
  rw [h] at hp
  cases hp

theorem of_mapIdx {names : List String}
    (h : c.templateParams = names.mapIdx fun i n => .placeholder n i) : c.ParamsNumbered := by
  intro k p hp
  rw [h, List.getElem?_mapIdx] at hp
  obtain ⟨n, -, rfl⟩ := Option.map_eq_some_iff.mp hp
  rfl

theorem of_head {d : BoundClass} (h : c.ParamsNumbered) (hhead : d.head = c.head) :
    d.ParamsNumbered := by
  intro k p hp
  have hparams : d.templateParams = c.templateParams := congrArg ClassHead.templateParams hhead
  rw [hparams] at hp
  exact h k p hp

end BoundClass.ParamsNumbered

namespace ClassStore

theorem get_modify (s : ClassStore) (i j : ClassId) (f : BoundClass → BoundClass) :
    (s.modify i f).get j = if i = j ∧ j < s.classes.size then f (s.get j) else s.get j := by
  unfold get modify
  simp only [Array.getElem?_modify]
  by_cases hj : j < s.classes.size
  · by_cases hi : i = j <;> simp [hi, hj]
  · by_cases hi : i = j <;> simp [hi, hj]

theorem size_modify (s : ClassStore) (i : ClassId) (f : BoundClass → BoundClass) :
    (s.modify i f).classes.size = s.classes.size := by
  simp [modify]

theorem get_create_of_lt (s : ClassStore) (c : BoundClass) {j : ClassId}
    (hj : j < s.classes.size) : (s.create c).2.get j = s.get j := by
  simp [get, create, Array.getElem?_push, Nat.ne_of_lt hj]

theorem get_create_self (s : ClassStore) (c : BoundClass) :
    (s.create c).2.get s.classes.size = c := by
  simp [get, create]

theorem size_create (s : ClassStore) (c : BoundClass) :
    (s.create c).2.classes.size = s.classes.size + 1 := by
  simp [create]

theorem get_of_size_le (s : ClassStore) {i : ClassId} (hi : s.classes.size ≤ i) :
    s.get i = default := by
  simp [get, hi]

/-- A class is what it was, or the one that was created. -/
theorem get_create (s : ClassStore) (c : BoundClass) (j : ClassId) :
    (s.create c).2.get j = s.get j ∨ (s.create c).2.get j = c := by
  rcases Nat.lt_trichotomy j s.classes.size with hj | rfl | hj
  · exact .inl (get_create_of_lt s c hj)
  · exact .inr (get_create_self s c)
  · refine .inl ?_
    rw [get_of_size_le s (by omega), get_of_size_le _ (by rw [size_create]; omega)]

end ClassStore
end Api

namespace Assembly

theorem get_modifyClass_self {i : ClassId} {s : State} (hi : i < s.store.classes.size)
    (f : BoundClass → BoundClass) : (s.modifyClass i f).store.get i = f (s.store.get i) := by
  show (s.store.modify i f).get i = _
  rw [ClassStore.get_modify, if_pos ⟨rfl, hi⟩]

theorem State.store_warnAll (s : State) (ws : List Warning) : (s.warnAll ws).store = s.store :=
  List.foldlRecOn (motive := fun t : State => t.store = s.store) ws State.warn rfl
    fun _ ht _ _ => ht

theorem State.db_warnAll (s : State) (ws : List Warning) : (s.warnAll ws).db = s.db :=
  List.foldlRecOn (motive := fun t : State => t.db = s.db) ws State.warn rfl fun _ ht _ _ => ht

/-- One change that the assembly of a header makes to its state. -/
inductive Change (h : Header) (s : State) : State → Prop
  /-- Something is filed or noted. -/
  | aside {t : State} (hdb : t.db = s.db) (hstore : t.store = s.store)
      (hfree : t.globalFunctions = s.globalFunctions) : Change h s t
  | learn {db : Database} (hdb : s.db.Step h db) : Change h s { s with db }
  | create {c : BoundClass} (hc : s.db.Describes c.entry) (hnone : c.functions = [])
      (hparams : c.ParamsNumbered) : Change h s (s.createClass c).2
  /-- Links or marks are put on a class. -/
  | edit (i : ClassId) {f : BoundClass → BoundClass} (hf : ∀ c : BoundClass, (f c).core = c.core) :
      Change h s (s.modifyClass i f)
  | addField (i : ClassId) (f : Field) : Change h s (s.modifyClass i (·.addField f))
  | addMember (i : ClassId) {f : BoundClass → Function} (hf : ∀ c, (f c).BelongsTo i) :
      Change h s (s.modifyClass i fun c => c.addFunction (f c))
  /-- A class takes a function over from another. -/
  | takeOver (i : ClassId) {j : ClassId} {f g : Function} (hf : f ∈ (s.store.get j).functions)
      (hg : f.BelongsTo j → g.BelongsTo i) : Change h s (s.modifyClass i (·.addFunction g))
  | settle (i : ClassId) (p : Function → Policies) :
      Change h s (s.modifyClass i fun c =>
        { c with functions := c.functions.map fun f => f.settle (p f) })
  | addFree {f : Function} (hf : f.IsFree) (hmarked : MarkedGlobally s.db f) :
      Change h s { s with globalFunctions := s.globalFunctions ++ [f] }
  | settleFree (p : Function → Policies) :
      Change h s { s with globalFunctions := s.globalFunctions.map fun f => f.settle (p f) }

namespace Change
variable {h : Header} {s t : State}

theorem db (hc : Change h s t) : s.db.Grows h t.db := by
  cases hc with
  | aside hdb =>
    rw [hdb]
    exact .refl s.db
  | learn hdb => exact .step hdb
  | create => exact .refl s.db
  | edit => exact .refl s.db
  | addField => exact .refl s.db
  | addMember => exact .refl s.db
  | takeOver => exact .refl s.db
  | settle => exact .refl s.db
  | addFree => exact .refl s.db
  | settleFree => exact .refl s.db

/-- The classes stay or one is created, for an entry of the rules, or one is modified. -/
theorem store (hc : Change h s t) :
    t.store = s.store ∨
    (∃ c, (s.db.Describes c.entry ∧ c.ParamsNumbered) ∧ c.functions = [] ∧
      t.store = (s.store.create c).2 ∧ t.db = s.db) ∨
    ∃ i f, t.store = s.store.modify i f ∧ ∀ c : BoundClass, (f c).head = c.head := by
  cases hc with
  | aside _ hstore => exact .inl hstore
  | learn => exact .inl rfl
  | create hc hnone hparams => exact .inr (.inl ⟨_, ⟨hc, hparams⟩, hnone, rfl, rfl⟩)
  | edit i hf => exact .inr (.inr ⟨i, _, rfl, fun c => BoundClass.head_eq_of_core (hf c)⟩)
  | addField i => exact .inr (.inr ⟨i, _, rfl, fun _ => rfl⟩)
  | addMember i => exact .inr (.inr ⟨i, _, rfl, fun _ => rfl⟩)
  | takeOver i => exact .inr (.inr ⟨i, _, rfl, fun _ => rfl⟩)
  | settle i p => exact .inr (.inr ⟨i, _, rfl, fun _ => rfl⟩)
  | addFree => exact .inl rfl
  | settleFree => exact .inl rfl

theorem size_le (hc : Change h s t) : s.store.classes.size ≤ t.store.classes.size := by
  rcases hc.store with heq | ⟨c, -, -, heq, -⟩ | ⟨i, f, heq, -⟩
  · exact Nat.le_of_eq (by rw [heq])
  · rw [heq, ClassStore.size_create]
    exact Nat.le_succ _
  · exact Nat.le_of_eq (by rw [heq, ClassStore.size_modify])

theorem head (hc : Change h s t) {i : Nat} (hi : i < s.store.classes.size) :
    (t.store.get i).head = (s.store.get i).head := by
  rcases hc.store with heq | ⟨c, -, -, heq, -⟩ | ⟨j, f, heq, hf⟩
  · rw [heq]
  · rw [heq, ClassStore.get_create_of_lt _ _ hi]
  · rw [heq, ClassStore.get_modify]
    split
    · exact hf _
    · rfl

theorem described (hc : Change h s t) {i : Nat} (hi : i < t.store.classes.size)
    (hle : s.store.classes.size ≤ i) : t.db.Describes (t.store.get i).entry := by
  rcases hc.store with heq | ⟨c, ⟨hd, -⟩, -, heq, hdb⟩ | ⟨j, f, heq, -⟩
  · rw [heq] at hi
    omega
  · rw [heq, ClassStore.size_create] at hi
    obtain rfl : i = s.store.classes.size := by omega
    rwa [heq, ClassStore.get_create_self, hdb]
  · rw [heq, ClassStore.size_modify] at hi
    omega

theorem paramsNumbered (hc : Change h s t) (hs : ∀ i, (s.store.get i).ParamsNumbered) (i : ClassId) :
    (t.store.get i).ParamsNumbered := by
  rcases hc.store with heq | ⟨c, ⟨-, hparams⟩, -, heq, -⟩ | ⟨j, f, heq, hf⟩
  · rw [heq]
    exact hs i
  · rw [heq]
    rcases ClassStore.get_create s.store c i with hold | hnew
    · rw [hold]
      exact hs i
    · rw [hnew]
      exact hparams
  · rw [heq, ClassStore.get_modify]
    split
    · exact (hs i).of_head (hf _)
    · exact hs i

theorem membersKept (hc : Change h s t) {i : Nat} (hi : i < s.store.classes.size) :
    (s.store.get i).MembersKept (t.store.get i) := by
  have hmodify : ∀ (j : ClassId) (f : BoundClass → BoundClass),
      (∀ c : BoundClass, c.MembersKept (f c)) →
      (s.store.get i).MembersKept ((s.store.modify j f).get i) := by
    intro j f hf
    rw [ClassStore.get_modify]
    split
    · exact hf _
    · exact .refl _
  cases hc with
  | aside _ hstore =>
    rw [hstore]
    exact .refl _
  | learn => exact .refl _
  | create =>
    show BoundClass.MembersKept _ ((s.store.create _).2.get i)
    rw [ClassStore.get_create_of_lt _ _ hi]
    exact .refl _
  | edit j hf => exact hmodify j _ fun c => .of_core (hf c)
  | addField j f => exact hmodify j _ fun c => .addField c f
  | addMember j => exact hmodify j _ fun c => .addFunction c _
  | takeOver j => exact hmodify j _ fun c => .addFunction c _
  | settle j p =>
    refine hmodify j _ fun c => ⟨?_, List.prefix_rfl⟩
    rw [List.map_map]
    exact List.prefix_rfl
  | addFree => exact .refl _
  | settleFree => exact .refl _

end Change

/-- The assembly of a header gets from one state to the other by any number of changes. -/
def Evolves (h : Header) : State → State → Prop := Relation.ReflTransGen (Change h)

namespace Evolves
variable {h : Header} {s t u : State}

theorem refl (s : State) : Evolves h s s := Relation.ReflTransGen.refl

theorem trans (hs : Evolves h s t) (ht : Evolves h t u) : Evolves h s u :=
  Relation.ReflTransGen.trans hs ht

instance : Std.Refl (Evolves h) := ⟨refl⟩

instance : IsTrans State (Evolves h) := ⟨fun _ _ _ => trans⟩

theorem step (hs : Evolves h s t) (hc : Change h t u) : Evolves h s u := .tail hs hc

theorem foldl {α : Type} {f : State → α → State} {l : List α}
    (hf : ∀ s, ∀ a ∈ l, Evolves h s (f s a)) (s : State) : Evolves h s (l.foldl f s) :=
  List.foldlRecOn l f (refl s) fun t ht a ha => ht.trans (hf t a ha)

/-! ### What an evolution leaves -/

theorem db (he : Evolves h s t) : s.db.Grows h t.db := by
  induction he with
  | refl => exact .refl s.db
  | tail _ hc ih => exact ih.trans hc.db

theorem size_le (he : Evolves h s t) : s.store.classes.size ≤ t.store.classes.size := by
  induction he with
  | refl => exact Nat.le_refl _
  | tail _ hc ih => exact Nat.le_trans ih hc.size_le

theorem head (he : Evolves h s t) (i : ClassId) (hi : i < s.store.classes.size) :
    (t.store.get i).head = (s.store.get i).head := by
  induction he with
  | refl => rfl
  | tail he hc ih => rw [hc.head (Nat.lt_of_lt_of_le hi (size_le he)), ih]

theorem membersKept (he : Evolves h s t) (i : ClassId) :
    (s.store.get i).MembersKept (t.store.get i) := by
  by_cases hi : i < s.store.classes.size
  · induction he with
    | refl => exact .refl _
    | tail he hc ih => exact ih.trans (hc.membersKept (Nat.lt_of_lt_of_le hi (size_le he)))
  · rw [ClassStore.get_of_size_le _ (Nat.not_lt.mp hi)]
    exact ⟨List.nil_prefix, List.nil_prefix⟩

theorem paramsNumbered (he : Evolves h s t) (hs : ∀ i, (s.store.get i).ParamsNumbered) :
    ∀ i, (t.store.get i).ParamsNumbered := by
  induction he with
  | refl => exact hs
  | tail _ hc ih => exact hc.paramsNumbered ih

theorem described (he : Evolves h s t) (i : ClassId) (hi : i < t.store.classes.size)
    (hle : s.store.classes.size ≤ i) : t.db.Describes (t.store.get i).entry := by
  induction he with
  | refl => exact absurd hi (Nat.not_lt.mpr hle)
  | @tail t u _ hc ih =>
    by_cases hit : i < t.store.classes.size
    · rw [BoundClass.entry_eq_of_head (hc.head hit)]
      exact hc.db.describes (ih hit)
    · exact hc.described hi (Nat.not_lt.mp hit)

/-! ### Changes of the rules and of classes -/

theorem aside (he : Evolves h s t) (hdb : u.db = t.db) (hstore : u.store = t.store)
    (hfree : u.globalFunctions = t.globalFunctions) : Evolves h s u :=
  he.step (.aside hdb hstore hfree)

theorem modifyDatabase (he : Evolves h s t) {f : Database → Database}
    (hf : t.db.Grows h (f t.db)) : Evolves h s (t.modifyDatabase f) := by
  have hdb : ∀ {db}, t.db.Grows h db → Evolves h t { t with db } := by
    intro db hg
    induction hg with
    | refl => exact refl t
    | tail _ hstep ih => exact ih.step (.learn hstep)
  exact he.trans (hdb hf)

theorem modifyClass (he : Evolves h s t) (i : ClassId) {f : BoundClass → BoundClass}
    (hf : ∀ c : BoundClass, (f c).core = c.core) : Evolves h s (t.modifyClass i f) :=
  he.step (.edit i hf)

theorem createClass (he : Evolves h s t) {c : BoundClass} (hc : t.db.Describes c.entry)
    (hnone : c.functions = []) (hparams : c.ParamsNumbered) : Evolves h s (t.createClass c).2 :=
  he.step (.create hc hnone hparams)

theorem addField (he : Evolves h s t) (i : ClassId) (f : Field) :
    Evolves h s (t.modifyClass i (·.addField f)) :=
  he.step (.addField i f)

theorem addMember (he : Evolves h s t) (i : ClassId) {f : Function} (hf : f.BelongsTo i) :
    Evolves h s (t.modifyClass i (·.addFunction f)) :=
  he.step (.addMember i fun _ => hf)

theorem foldlStore {α : Type} {f : ClassStore → α → ClassStore}
    (hf : ∀ (s : State) a, Evolves h s { s with store := f s.store a }) (l : List α) (s : State) :
    Evolves h s { s with store := l.foldl f s.store } := by
  induction l generalizing s with
  | nil => exact refl s
  | cons a l ih => exact (hf s a).trans (ih { s with store := f s.store a })

/-! ### What is filed or noted -/

theorem warn (he : Evolves h s t) (w : Warning) : Evolves h s (t.warn w) := he.aside rfl rfl rfl

theorem reject (he : Evolves h s t) (c : RejectCategory) (r : RejectRecord) :
    Evolves h s (t.reject c r) :=
  he.aside rfl rfl rfl

theorem warnAll (he : Evolves h s t) (ws : List Warning) : Evolves h s (t.warnAll ws) :=
  he.trans (foldl (fun u w _ => (refl u).warn w) t)

theorem warnIf (he : Evolves h s t) (b : Bool) (w : Warning) : Evolves h s (t.warnIf b w) := by
  unfold State.warnIf
  split
  · exact he.warn w
  · exact he

theorem applyInclude (he : Evolves h s t) (env : Env) (e : Entry) (file? : Option String) :
    Evolves h s (t.applyInclude env e file?) := by
  unfold State.applyInclude
  split
  · exact he.modifyDatabase (.step (.setInclude e _))
  · exact he

theorem addClass (he : Evolves h s t) (i : ClassId) : Evolves h s (t.addClass i) := by
  unfold State.addClass
  split
  · split
    · exact he
    · exact he.aside rfl rfl rfl
  · split
    · exact he
    · exact he.aside rfl rfl rfl
  · exact he.aside rfl rfl rfl

end Evolves
end Assembly
end BindingModel
