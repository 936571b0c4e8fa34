import BindingModel.Proofs.Assembly.Provenance
import BindingModel.Proofs.Assembly.Settling
import BindingModel.Proofs.Rule.Learning

/-! What each stage of an assembly may do: the first one creates classes and enums, the second one
gives the classes their members, the third one completes them. -/
namespace BindingModel
open Api Header

namespace Api.BoundClass

/-- The marks of a class that say which functions it has. -/
def summaryMarks : List ClassAttr := [.abstract, .hasEqualsOperator]

/-- Only links and other marks were put on a class. -/
structure SameRecord (c d : BoundClass) : Prop where
  core : d.core = c.core
  enums : d.enums = c.enums
  marks : ∀ a ∈ summaryMarks, d.has a = c.has a

namespace SameRecord

theorem refl (c : BoundClass) : c.SameRecord c := ⟨rfl, rfl, fun _ _ => rfl⟩

theorem trans {c d e : BoundClass} (h : c.SameRecord d) (k : d.SameRecord e) : c.SameRecord e :=
  ⟨k.core.trans h.core, k.enums.trans h.enums, fun a ha => (k.marks a ha).trans (h.marks a ha)⟩

theorem insertAll (c : BoundClass) {marks : List ClassAttr}
    (h : ∀ a ∈ summaryMarks, a ∉ marks) :
    c.SameRecord { c with attrs := c.attrs.insertAll marks } := by
  refine ⟨rfl, rfl, fun a ha => ?_⟩
  show (c.attrs.insertAll marks).has a = c.attrs.has a
  rw [FlagSet.has_insertAll]
  simp [h a ha]

theorem addAttr (c : BoundClass) {mark : ClassAttr} (h : mark ∉ summaryMarks) :
    c.SameRecord (c.addAttr mark) :=
  insertAll c fun a ha hmem => h ((List.mem_singleton.mp hmem : a = mark) ▸ ha)

theorem addInterface (c : BoundClass) (i : ClassId) : c.SameRecord (c.addInterface i) := by
  unfold BoundClass.addInterface
  split
  · exact .refl c
  · exact ⟨rfl, rfl, fun _ _ => rfl⟩

theorem addInterfaces (c : BoundClass) (l : List ClassId) :
    c.SameRecord (l.foldl (·.addInterface ·) c) :=
  List.foldlRecOn l _ (refl c) fun d hd i _ => hd.trans (addInterface d i)

theorem addExternalConversion (c : BoundClass) (r : FunctionRef) :
    c.SameRecord (c.addExternalConversion r) := by
  unfold BoundClass.addExternalConversion
  split
  · exact .refl c
  · exact ⟨rfl, rfl, fun _ _ => rfl⟩

end SameRecord
end Api.BoundClass

namespace Assembly

/-- No policies of a function are settled. -/
def State.Unsettled (s : State) : Prop :=
  ∀ i, ∀ f ∈ (s.store.get i).functions, f.settled? = none

/-- The enum goes by the name of the entry, or an enumerator does if it has no name of its own. -/
def GoesBy (d : EnumDecl) (scope : String) (e : Entry) : Prop :=
  e.name = inScope scope d.name ∨
    (d.kind = .anonymous ∨ d.name = "") ∧ ∃ v ∈ d.enumerators, e.name = inScope scope v.name

inductive Stage
  | declaring
  | filling
  | completing
  deriving DecidableEq

/-- One step of a stage, where the header declares some enums in some scopes. -/
inductive Step (D : List (String × EnumDecl)) (s : State) : Stage → State → Prop
  /-- Something is filed or noted. -/
  | aside {k : Stage} {t : State} (hdb : t.db = s.db) (hstore : t.store = s.store)
      (henums : t.globalEnums = s.globalEnums) (hscopes : t.scopes = s.scopes) : Step D s k t
  | learn {k : Stage} {db : Database} (hdb : s.db.Learns db) : Step D s k { s with db }
  /-- An enum is private or rejected. -/
  | disable {scope : String} {d : EnumDecl} {e : Entry} (hd : (scope, d) ∈ D)
      (he : e ∈ s.db.entries) (hname : GoesBy d scope e)
      (hwhy : d.access = .priv ∨ (s.db.rejection? .enumeration scope d.name).isSome) :
      Step D s .declaring (s.modifyDatabase (·.setCodegen e noCode))
  | create {c : BoundClass} (hfunctions : c.functions = []) (hfields : c.fields = [])
      (hmarks : ∀ a ∈ BoundClass.summaryMarks, c.has a = false) :
      Step D s .declaring (s.createClass c).2
  | addEnum (i : ClassId) (e : Enumeration) :
      Step D s .declaring (s.modifyClass i fun c => { c with enums := c.enums ++ [e] })
  | addFreeEnum (e : Enumeration) :
      Step D s .declaring { s with globalEnums := s.globalEnums ++ [e] }
  /-- Links or marks are put on a class. -/
  | edit {k : Stage} (i : ClassId) {f : BoundClass → BoundClass}
      (hf : ∀ c : BoundClass, c.SameRecord (f c)) : Step D s k (s.modifyClass i f)
  /-- A typedef takes over marks of its template. -/
  | takeMarks (i : ClassId) (marks : List ClassAttr) :
      Step D s .completing (s.modifyClass i fun c =>
        if c.isTypedef then { c with attrs := c.attrs.insertAll marks } else c)
  | addField {k : Stage} (hk : k ≠ .declaring) (i : ClassId) (f : Field) :
      Step D s k (s.modifyClass i (·.addField f))
  | addMember (i : ClassId) {f : Function} (hf : f.Declared) :
      Step D s .filling ((s.modifyClass i fun c =>
        { c with attrs := c.attrs.insertAll (memberMarks f) }).modifyClass i (·.addFunction f))
  /-- Only typedefs have functions of rules before the other members. -/
  | addRule {k : Stage} (i : ClassId) {f : Function} (hf : f.AddedByRule)
      (hk : k = .filling ∨ k = .declaring ∧ (s.store.get i).isTypedef = true) :
      Step D s k (s.modifyClass i (·.addFunction f))
  /-- A function is implicit, an operator, or taken over from a template. -/
  | addLate (i : ClassId) {f : BoundClass → Function}
      (hf : s.Unsettled → ∀ c, (f c).settled? = none) :
      Step D s .completing (s.modifyClass i fun c => c.addFunction (f c))

/-- What a step makes of a single class. -/
inductive Touches (s : State) : Stage → BoundClass → BoundClass → Prop
  | create {c d : BoundClass} (hfunctions : d.functions = []) (hfields : d.fields = [])
      (hmarks : ∀ a ∈ BoundClass.summaryMarks, d.has a = false) : Touches s .declaring c d
  | addEnum (c : BoundClass) (e : Enumeration) :
      Touches s .declaring c { c with enums := c.enums ++ [e] }
  | edit {k : Stage} {c d : BoundClass} (h : c.SameRecord d) : Touches s k c d
  | takeMarks (c : BoundClass) (marks : List ClassAttr) (htypedef : c.isTypedef = true) :
      Touches s .completing c { c with attrs := c.attrs.insertAll marks }
  | addField {k : Stage} (hk : k ≠ .declaring) (c : BoundClass) (f : Field) :
      Touches s k c (c.addField f)
  | addMember (c : BoundClass) {f : Function} (hf : f.Declared) :
      Touches s .filling c
        (BoundClass.addFunction { c with attrs := c.attrs.insertAll (memberMarks f) } f)
  | addRule {k : Stage} (c : BoundClass) {f : Function} (hf : f.AddedByRule)
      (hk : k = .filling ∨ k = .declaring ∧ c.isTypedef = true) : Touches s k c (c.addFunction f)
  | addLate (c : BoundClass) {f : Function} (hf : s.Unsettled → f.settled? = none) :
      Touches s .completing c (c.addFunction f)

/-- Any number of steps of a stage. -/
def Advances (D : List (String × EnumDecl)) (k : Stage) : State → State → Prop :=
  Relation.ReflTransGen fun s t => Step D s k t

namespace Step
variable {D : List (String × EnumDecl)} {k : Stage} {s t : State}

/-- A class is created, or what it was created with stays. -/
theorem head (h : Step D s k t) : s.store.classes.size ≤ t.store.classes.size ∧
    ∀ i < s.store.classes.size, (t.store.get i).head = (s.store.get i).head := by
  have hmodify : ∀ (u : State) (j : ClassId) (f : BoundClass → BoundClass),
      (∀ c : BoundClass, (f c).head = c.head) →
      u.store.classes.size ≤ (u.modifyClass j f).store.classes.size ∧
        ∀ i < u.store.classes.size, ((u.modifyClass j f).store.get i).head =
          (u.store.get i).head := by
    intro u j f hf
    refine ⟨Nat.le_of_eq (u.store.size_modify j f).symm, fun i _ => ?_⟩
    show ((u.store.modify j f).get i).head = _
    rw [ClassStore.get_modify]
    split
    · exact hf _
    · rfl
  cases h with
  | aside _ hstore =>
    rw [hstore]
    exact ⟨Nat.le_refl _, fun _ _ => rfl⟩
  | learn => exact ⟨Nat.le_refl _, fun _ _ => rfl⟩
  | disable => exact ⟨Nat.le_refl _, fun _ _ => rfl⟩
  | @create c =>
    refine ⟨?_, fun i hi => congrArg BoundClass.head (s.store.get_create_of_lt c hi)⟩
    rw [show (s.createClass c).2.store = (s.store.create c).2 from rfl, ClassStore.size_create]
    exact Nat.le_succ _
  | addEnum i => exact hmodify s i _ fun _ => rfl
  | addFreeEnum => exact ⟨Nat.le_refl _, fun _ _ => rfl⟩
  | edit i hf => exact hmodify s i _ fun c => BoundClass.head_eq_of_core (hf c).core
  | takeMarks i marks =>
    refine hmodify s i _ fun c => ?_
    split <;> rfl
  | addField _ i => exact hmodify s i _ fun _ => rfl
  | @addMember i f =>
    obtain ⟨hsize, hhead⟩ := hmodify s i
      (fun c => { c with attrs := c.attrs.insertAll (memberMarks f) }) fun _ => rfl
    obtain ⟨hsize', hhead'⟩ := hmodify (s.modifyClass i fun c =>
      { c with attrs := c.attrs.insertAll (memberMarks f) }) i (·.addFunction f) fun _ => rfl
    refine ⟨Nat.le_trans hsize hsize', fun j hj => ?_⟩
    rw [hhead' j (Nat.lt_of_lt_of_le hj hsize), hhead j hj]
  | addRule i => exact hmodify s i _ fun _ => rfl
  | addLate i => exact hmodify s i _ fun _ => rfl

/-- A step does one of these things to each class, and nothing to most of them. -/
theorem touches (h : Step D s k t) (i : ClassId) :
    Touches s k (s.store.get i) (t.store.get i) := by
  have hkeep : Touches s k (s.store.get i) (s.store.get i) := .edit (.refl _)
  have hmodify : ∀ (j : ClassId) (f : BoundClass → BoundClass),
      (j = i → Touches s k (s.store.get i) (f (s.store.get i))) →
      Touches s k (s.store.get i) ((s.modifyClass j f).store.get i) := by
    intro j f hf
    show Touches s k _ ((s.store.modify j f).get i)
    rw [ClassStore.get_modify]
    split
    · next hij => exact hf hij.1
    · exact hkeep
  cases h with
  | aside _ hstore => rwa [hstore]
  | learn => exact hkeep
  | disable => exact hkeep
  | @create c hfunctions hfields hmarks =>
    rcases s.store.get_create c i with hold | hnew
    · rwa [show (s.createClass c).2.store.get i = _ from hold]
    · rw [show (s.createClass c).2.store.get i = _ from hnew]
      exact .create hfunctions hfields hmarks
  | addEnum j e => exact hmodify j _ fun _ => .addEnum _ e
  | addFreeEnum => exact hkeep
  | edit j hf => exact hmodify j _ fun _ => .edit (hf _)
  | takeMarks j marks =>
    refine hmodify j _ fun _ => ?_
    split
    · next htypedef => exact .takeMarks _ marks htypedef
    · exact hkeep
  | addField hk j f => exact hmodify j _ fun _ => .addField hk _ f
  | @addMember j f hf =>
    have htwice : ((s.modifyClass j fun c => { c with
        attrs := c.attrs.insertAll (memberMarks f) }).modifyClass j (·.addFunction f)).store.get i =
        (s.modifyClass j fun c => BoundClass.addFunction { c with
          attrs := c.attrs.insertAll (memberMarks f) } f).store.get i := by
      show ((s.store.modify j _).modify j _).get i = (s.store.modify j _).get i
      rw [ClassStore.get_modify, ClassStore.get_modify, ClassStore.get_modify,
        ClassStore.size_modify]
      split <;> rfl
    rw [htwice]
    exact hmodify j _ fun _ => .addMember _ hf
  | addRule j hf hk => exact hmodify j _ fun hij => .addRule _ hf (hij ▸ hk)
  | addLate j hf => exact hmodify j _ fun _ => .addLate _ fun hs => hf hs _

theorem scopes (h : Step D s k t) : t.scopes = s.scopes := by
  cases h with
  | aside _ _ _ hscopes => exact hscopes
  | _ => rfl

end Step

namespace Advances
variable {D : List (String × EnumDecl)} {k : Stage} {s t u : State}

theorem refl (s : State) : Advances D k s s := Relation.ReflTransGen.refl

theorem trans (h : Advances D k s t) (h' : Advances D k t u) : Advances D k s u :=
  Relation.ReflTransGen.trans h h'

instance : Std.Refl (Advances D k) := ⟨refl⟩

instance : IsTrans State (Advances D k) := ⟨fun _ _ _ => trans⟩

theorem step (h : Advances D k s t) (h' : Step D t k u) : Advances D k s u := .tail h h'

theorem foldl {α : Type} {f : State → α → State} {l : List α}
    (hf : ∀ s, ∀ a ∈ l, Advances D k s (f s a)) (s : State) : Advances D k s (l.foldl f s) :=
  List.foldlRecOn l f (refl s) fun t ht a ha => ht.trans (hf t a ha)

/-! ### What stays -/

theorem keeps {I : State → Prop} (hstep : ∀ {s t}, Step D s k t → I s → I t)
    (h : Advances D k s t) (hs : I s) : I t := by
  induction h with
  | refl => exact hs
  | tail _ h ih => exact hstep h ih

theorem head (h : Advances D k s t) : s.store.classes.size ≤ t.store.classes.size ∧
    ∀ i < s.store.classes.size, (t.store.get i).head = (s.store.get i).head := by
  induction h with
  | refl => exact ⟨Nat.le_refl _, fun _ _ => rfl⟩
  | tail _ hstep ih =>
    obtain ⟨hsize, hhead⟩ := hstep.head
    refine ⟨Nat.le_trans ih.1 hsize, fun i hi => ?_⟩
    rw [hhead i (Nat.lt_of_lt_of_le hi ih.1), ih.2 i hi]

theorem scopes (h : Advances D k s t) : t.scopes = s.scopes := by
  induction h with
  | refl => rfl
  | tail _ hstep ih => rw [hstep.scopes, ih]

/-! ### Single steps -/

theorem aside (h : Advances D k s t) (hdb : u.db = t.db) (hstore : u.store = t.store)
    (henums : u.globalEnums = t.globalEnums) (hscopes : u.scopes = t.scopes) :
    Advances D k s u :=
  h.step (.aside hdb hstore henums hscopes)

theorem learn (h : Advances D k s t) {f : Database → Database} (hf : t.db.Learns (f t.db)) :
    Advances D k s (t.modifyDatabase f) :=
  h.step (.learn hf)

theorem edit (h : Advances D k s t) (i : ClassId) {f : BoundClass → BoundClass}
    (hf : ∀ c : BoundClass, c.SameRecord (f c)) : Advances D k s (t.modifyClass i f) :=
  h.step (.edit i hf)

theorem warn (h : Advances D k s t) (w : Warning) : Advances D k s (t.warn w) :=
  h.aside rfl rfl rfl rfl

theorem reject (h : Advances D k s t) (c : RejectCategory) (r : RejectRecord) :
    Advances D k s (t.reject c r) :=
  h.aside rfl rfl rfl rfl

theorem warnAll (h : Advances D k s t) (ws : List Warning) : Advances D k s (t.warnAll ws) :=
  h.trans (foldl (fun u w _ => (refl u).warn w) t)

theorem warnIf (h : Advances D k s t) (b : Bool) (w : Warning) :
    Advances D k s (t.warnIf b w) := by
  unfold State.warnIf
  split
  · exact h.warn w
  · exact h

theorem applyInclude (h : Advances D k s t) (env : Env) (e : Entry) (file? : Option String) :
    Advances D k s (t.applyInclude env e file?) := by
  unfold State.applyInclude
  split
  · exact h.learn (.setInclude _ e _)
  · exact h

theorem addClass (h : Advances D k s t) (i : ClassId) : Advances D k s (t.addClass i) := by
  unfold State.addClass
  split
  · split
    · exact h
    · exact h.aside rfl rfl rfl rfl
  · split
    · exact h
    · exact h.aside rfl rfl rfl rfl
  · exact h.aside rfl rfl rfl rfl

theorem foldlStore {α : Type} {f : ClassStore → α → ClassStore}
    (hf : ∀ (s : State) a, Advances D k s { s with store := f s.store a }) (l : List α)
    (s : State) : Advances D k s { s with store := l.foldl f s.store } := by
  induction l generalizing s with
  | nil => exact refl s
  | cons a l ih => exact (hf s a).trans (ih { s with store := f s.store a })

end Advances

section
variable {D : List (String × EnumDecl)} {k : Stage}

/-! ### Enums -/

theorem registerEnumValues_learns (d : EnumDecl) (e : Entry) (scope : String) (db : Database) :
    db.Learns (registerEnumValues d e scope db) := by
  refine Database.Learns.foldl (fun db v => ?_) d.enumerators db
  have hvalue : db.Learns
      (registerEnumValue db (scope ++ v.name) (toString v.value) (some e)) := by
    unfold registerEnumValue
    split
    · exact .refl db
    · exact .add db _ (by simp [EntryDetail.kind])
  dsimp only
  split
  · exact hvalue.trans (.setNullValue _ e v.name)
  · exact hvalue

theorem mem_entries_of_find? {db : Database} {p : Entry → Bool} {name : String} {e : Entry}
    (h : (db.named name).find? p = some e) : e ∈ db.entries ∧ e.name = name := by
  have hmem := List.mem_filter.mp (List.mem_of_find?_eq_some h)
  exact ⟨hmem.1, by simpa using hmem.2⟩

/-- An enum finds its entry, or it is private and gets a new one. Either may be switched off where
the enum is private or rejected. -/
theorem enumEntry_advances {d : EnumDecl} {scope : String} (hd : (scope, d) ∈ D) (s : State) :
    Advances D .declaring s (enumEntry s d scope).2.2 ∧
      ∀ e, (enumEntry s d scope).1 = some e →
        d.access = .priv ∨
          ((enumEntry s d scope).2.2.db.rejection? .enumeration scope d.name).isSome →
        Advances D .declaring s
          ((enumEntry s d scope).2.2.modifyDatabase (·.setCodegen e noCode)) := by
  have hfound : ∀ {e : Entry}, e ∈ s.db.entries → GoesBy d scope e →
      d.access = .priv ∨ (s.db.rejection? .enumeration scope d.name).isSome →
      Advances D .declaring s (s.modifyDatabase (·.setCodegen e noCode)) :=
    fun he hname hwhy => (Advances.refl s).step (.disable hd he hname hwhy)
  unfold enumEntry
  dsimp only
  split
  · split
    · next e he =>
      obtain ⟨hmem, hname⟩ := mem_entries_of_find? he
      refine ⟨.refl s, fun e' he' hwhy => ?_⟩
      obtain rfl := Option.some.inj he'
      exact hfound hmem (.inl hname) hwhy
    · have hkind : (EntryDetail.enumeration : EntryDetail Entry).kind ≠ .typedef := by decide
      refine ⟨(Advances.refl s).step (.learn (.add s.db _ hkind)), fun e' he' _ => ?_⟩
      obtain rfl := Option.some.inj he'
      exact (Advances.refl s).step (.learn (.addDisabled s.db _ hkind noCode))
  · split
    · next hanonymous =>
      split
      · next e he =>
        obtain ⟨v, hv, he⟩ := List.exists_of_findSome?_eq_some he
        obtain ⟨hmem, hname⟩ := mem_entries_of_find? he
        refine ⟨.refl s, fun e' he' hwhy => ?_⟩
        obtain rfl := Option.some.inj he'
        exact hfound hmem (.inr ⟨hanonymous, v, hv, hname⟩) hwhy
      · exact ⟨.refl s, fun e' he' => by cases he'⟩
    · refine ⟨.refl s, fun e' he' hwhy => ?_⟩
      obtain ⟨hmem, hname⟩ := mem_entries_of_find? he'
      exact hfound hmem (.inl hname) hwhy

theorem scanEnum_advances (env : Env) (s : State) (enclosing? : Option ClassId) {d : EnumDecl}
    (hd : ((enclosing?.map fun c => (s.store.get c).qualifiedName).getD "", d) ∈ D) :
    Advances D .declaring s (scanEnum env s enclosing? d).2 := by
  unfold scanEnum
  dsimp only
  generalize ((enclosing?.map fun c => (s.store.get c).qualifiedName).getD "") = scope at hd
  obtain ⟨hentry, hdisabled⟩ := enumEntry_advances hd s
  generalize enumEntry s d scope = found at hentry hdisabled
  obtain ⟨found?, name, t⟩ := found
  dsimp only at hentry hdisabled ⊢
  split
  · next rule hrule =>
    split
    · next e => exact (hdisabled e rfl (.inr (by rw [hrule]; rfl))).reject .enums _
    · exact hentry.reject .enums _
  · split
    · exact (hentry.warnIf _ _).reject .enums _
    · next e he =>
      have hfound := (Option.filter_eq_some_iff.mp he).1
      refine Advances.applyInclude (Advances.learn ?_ ?_) env e d.file?
      · split
        · next hpriv => exact hdisabled e hfound (.inl hpriv)
        · exact hentry
      · exact registerEnumValues_learns d e _ _

theorem addEnums_advances (env : Env) (c : ClassId) {scope : String} {enums : List EnumDecl}
    (hd : ∀ d ∈ enums, (scope, d) ∈ D) {s : State} (hc : c < s.store.classes.size)
    (hscope : (s.store.get c).qualifiedName = scope) :
    Advances D .declaring s (addEnums env c enums s) := by
  induction enums generalizing s with
  | nil => exact .refl s
  | cons d enums ih =>
    have hscan : Advances D .declaring s (scanEnum env s (some c) d).2 := by
      refine scanEnum_advances env s (some c) ?_
      rw [Option.map_some, Option.getD_some, hscope]
      exact hd d List.mem_cons_self
    have hstep : Advances D .declaring s (addEnums env c [d] s) := by
      unfold addEnums
      rw [List.foldl_cons, List.foldl_nil]
      split
      · next e t h =>
        rw [h] at hscan
        exact hscan.step (.addEnum c e)
      · next t h =>
        rwa [h] at hscan
    obtain ⟨hsize, hhead⟩ := hstep.head
    show Advances D .declaring s (addEnums env c enums (addEnums env c [d] s))
    refine hstep.trans (ih (fun d' hd' => hd d' (List.mem_cons_of_mem d hd'))
      (Nat.lt_of_lt_of_le hc hsize) ?_)
    rw [← hscope]
    exact congrArg Entry.name (BoundClass.entry_eq_of_head (hhead c hc))

theorem addGlobalEnums_advances (env : Env)
    (hd : ∀ d ∈ env.header.global.decls.enums, ("", d) ∈ D) (s : State) :
    Advances D .declaring s (addGlobalEnums env s) := by
  refine Advances.foldl (fun s d hmem => ?_) s
  have hscan : Advances D .declaring s (scanEnum env s none d).2 :=
    scanEnum_advances env s none (hd d hmem)
  split
  · next e t h =>
    rw [h] at hscan
    split
    · exact hscan.step (.addFreeEnum e)
    · exact hscan
  · next t h =>
    rwa [h] at hscan

/-! ### Declarations -/

theorem addProperties_advances (env : Env) (p : Place) (c : ClassId) (texts : List String)
    (s : State) : Advances D k s (addProperties env p c texts s) := by
  unfold addProperties
  exact (((Advances.refl s).warnAll _).warnAll _).edit c fun _ => ⟨rfl, rfl, fun _ _ => rfl⟩

theorem adopt_advances (parent c : ClassId) (s : State) : Advances D k s (adopt parent c s) := by
  have hc : Advances D k s (s.modifyClass c (·.setEnclosing parent)) :=
    (Advances.refl s).edit c fun _ => ⟨rfl, rfl, fun _ _ => rfl⟩
  have hparent := hc.edit parent (f := fun x => { x with inner := x.inner ++ [c] })
    fun _ => ⟨rfl, rfl, fun _ _ => rfl⟩
  exact hparent.addClass c

/-! ### Members -/

theorem addField_advances (hk : k ≠ .declaring) (env : Env) (p : Place) (i : ClassId) (s : State)
    (v : VariableDecl) : Advances D k s (addField env p i s v) := by
  unfold addField
  dsimp only
  split
  · exact (Advances.refl s).step (.addField hk i _)
  · exact .refl s
  · exact (Advances.refl s).reject .fields _
  · exact (Advances.refl s).warnIf _ _

theorem judge_advances (env : Env) (s : State) (p : Place) (d : FunctionDecl) :
    Advances D k s (s.judge env p d).2 := by
  unfold State.judge
  dsimp only
  split
  · exact ((Advances.refl s).warnAll _).reject .functions _
  · exact (Advances.refl s).warnAll _

/-- What a constructor or destructor leaves on its class is no summary. -/
theorem not_mem_memberless_marks {a : ClassAttr} (ha : a ∈ BoundClass.summaryMarks) :
    (∀ c d, a ∉ rejectedMarks c d) ∧ (∀ f, a ∉ destructorMarks f) ∧
      a ∉ [ClassAttr.hasPrivateConstructor] := by
  have hcases : a = .abstract ∨ a = .hasEqualsOperator := by
    simpa [BoundClass.summaryMarks] using ha
  refine ⟨fun c d => ?_, fun f => ?_, ?_⟩
  · unfold rejectedMarks
    rcases hcases with rfl | rfl <;> split <;> (try split) <;> simp
  · unfold destructorMarks
    rcases hcases with rfl | rfl <;> cases f.visibility <;> split <;> simp
  · rcases hcases with rfl | rfl <;> simp

theorem addMember_advances (env : Env) (p : Place) (i : ClassId) (s : State) (d : FunctionDecl) :
    Advances D .filling s (addMember env p i s d) := by
  have hjudge : Advances D .filling s (s.judge env p d).2 := judge_advances env s p d
  have hmark : ∀ (t : State) (marks : List ClassAttr),
      (∀ a ∈ BoundClass.summaryMarks, a ∉ marks) → Advances D .filling t (t.modifyClass i fun c =>
        { c with attrs := c.attrs.insertAll marks }) :=
    fun t marks h => (Advances.refl t).edit i fun c => .insertAll c h
  unfold addMember
  dsimp only
  split
  · next t ht =>
    rwa [ht] at hjudge
  · next t ht =>
    rw [ht] at hjudge
    exact hjudge.trans (hmark t _ fun a ha => (not_mem_memberless_marks ha).1 _ d)
  · next f t ht =>
    rw [ht] at hjudge
    split
    · exact hjudge.trans (hmark t _ fun a ha => (not_mem_memberless_marks ha).2.1 _)
    · split
      · exact hjudge.trans (hmark t _ fun a ha => (not_mem_memberless_marks ha).2.2)
      · have hdeclared := (judge_declared ht).insertIf (s.store.get i).isNamespace
          (a := .static) (by decide)
        exact hjudge.step (.addMember i (hdeclared.finishMember t _))

theorem addGlobalFunction_advances (env : Env) (s : State) (d : FunctionDecl) :
    Advances D k s (addGlobalFunction env s d) := by
  have hjudge : Advances D k s (s.judge env {} d).2 := judge_advances env s {} d
  unfold addGlobalFunction
  split
  · exact .refl s
  · split
    · exact .refl s
    · next entry _ =>
      split
      · next f t ht =>
        rw [ht] at hjudge
        dsimp only
        split
        · exact (hjudge.applyInclude env entry d.file?).aside rfl rfl rfl rfl
        · exact hjudge
      · next t _ ht =>
        rwa [ht] at hjudge

/-! ### Inheritance -/

theorem argumentEntry_advances (s : State) (c template : ClassId) (name : String) :
    Advances D k s (argumentEntry s c template name).2 := by
  unfold argumentEntry
  split
  · split
    · exact .refl s
    · have hkind : (EntryDetail.enumValue name none : EntryDetail Entry).kind ≠ .typedef := by
        simp [EntryDetail.kind]
      exact (Advances.refl s).step (.learn (.addDisabled s.db name hkind noCode))
  · exact .refl s

theorem bindArguments_advances (c template : ClassId) (t : TypeExpr) (l : List TypeExpr)
    (s : State) : Advances D k s (bindArguments c template t l s).2 := by
  induction l generalizing s with
  | nil => exact .refl s
  | cons a l ih =>
    have hentry : Advances D k s (argumentEntry s c template a.qualifiedName).2 :=
      argumentEntry_advances s c template a.qualifiedName
    unfold bindArguments
    split
    · next u hu =>
      rw [hu] at hentry
      exact (hentry.warn _).trans (ih _)
    · next e u hu =>
      rw [hu] at hentry
      exact hentry.trans (ih u)

theorem warnUninstantiable_advances (env : Env) (s : State) (u : Uninstantiable) :
    Advances D k s (warnUninstantiable env s u) := by
  unfold warnUninstantiable
  split
  · exact (Advances.refl s).warn _
  · exact .refl s

theorem settled?_instantiateFunction {bindings : List BoundType} {maxDepth : Nat}
    {f g : Function} (h : instantiateFunction bindings maxDepth f = .ok g) :
    g.settled? = f.settled? := by
  obtain ⟨returnType?, -, h⟩ := Error.bind_eq_ok h
  obtain ⟨args, -, h⟩ := Error.bind_eq_ok h
  cases h
  rfl

theorem inheritFunction_advances (env : Env) (i : ClassId) (template : BoundClass)
    (bindings : List BoundType) (s : State) {j : ClassId} {f : Function}
    (hf : f ∈ (s.store.get j).functions) :
    Advances D .completing s (inheritFunction env i template bindings s f) := by
  unfold inheritFunction
  dsimp only
  split
  · split
    · exact warnUninstantiable_advances env s _
    · next g hg =>
      refine Advances.step (Advances.warnAll (.learn (.refl s) ?_) _) (.addLate i fun hs _ => ?_)
      · exact .foldl (fun db m => .addMod db _ m) _ s.db
      · have hsettled : g.settled? = none := by
          rw [settled?_instantiateFunction hg]
          refine hs j f ?_
          rw [State.store_warnAll]
          exact hf
        show (adaptFunction i (s.store.get i) g).settled? = none
        unfold adaptFunction
        dsimp only
        split <;> exact hsettled
  · exact .refl s

theorem inheritFunctions_advances (env : Env) (i : ClassId) (template : BoundClass)
    (bindings : List BoundType) (j : ClassId) {l : List Function} {s : State}
    (hl : ∀ f ∈ l, f ∈ (s.store.get j).functions) :
    Advances D .completing s (l.foldl (inheritFunction env i template bindings) s) := by
  induction l generalizing s with
  | nil => exact .refl s
  | cons f l ih =>
    refine (inheritFunction_advances env i template bindings s (hl f List.mem_cons_self)).trans
      (ih fun g hg => ?_)
    exact mem_functions_inheritFunction env i template bindings f
      (hl g (List.mem_cons_of_mem f hg))

theorem inheritField_advances (env : Env) (i : ClassId) (template : BoundClass)
    (bindings : List BoundType) (s : State) (f : Field) :
    Advances D .completing s (inheritField env i template bindings s f) := by
  unfold inheritField
  dsimp only
  split
  · exact .refl s
  · split
    · exact warnUninstantiable_advances env s _
    · exact (Advances.refl s).step (.addField (by decide) i _)

theorem inheritTemplate_advances (env : Env) (i t : ClassId) (written : TypeExpr) (s : State) :
    Advances D .completing s (inheritTemplate env i t written s) := by
  have hbind : Advances D .completing s (bindInstance i t written s).2 :=
    ((Advances.refl s).step (.takeMarks i _)).trans
      (bindArguments_advances i t written written.args _)
  have hstore : ∀ f ∈ (s.store.get t).functions,
      f ∈ ((bindInstance i t written s).2.store.get t).functions := by
    intro f hf
    unfold bindInstance
    rw [store_bindArguments]
    show f ∈ ((s.store.modify i _).get t).functions
    rw [ClassStore.get_modify]
    split
    · split <;> exact hf
    · exact hf
  have hfunctions := hbind.trans (inheritFunctions_advances env i (s.store.get t)
    (bindInstance i t written s).1 t hstore)
  have hfields : Advances D .completing s (takeFields env i t written s) :=
    hfunctions.trans (.foldl (fun u f _ => inheritField_advances env i _ _ u f) _)
  rw [inheritTemplate_eq]
  refine hfields.edit i fun c => ?_
  have hlinks : c.SameRecord (((takeFields env i t written s).store.interfaces t).foldl
      (·.addInterface ·) (c.setTemplateBase t ((bindInstance i t written s).1.map (·.entry)))) :=
    BoundClass.SameRecord.trans (d := c.setTemplateBase t _) ⟨rfl, rfl, fun _ _ => rfl⟩
      (.addInterfaces _ _)
  unfold takeLinks
  cases (takeFields env i t written s).store.base? t with
  | none => exact hlinks
  | some b => exact hlinks.trans ⟨rfl, rfl, fun _ _ => rfl⟩

section
variable {settle : ClassId → State → State}
  (hsettle : ∀ i s, Advances D .completing s (settle i s))
include hsettle

theorem resolveTemplateBase_advances (env : Env) (i : ClassId) (written : String) (s : State) :
    Advances D .completing s (resolveTemplateBase env settle i written s) := by
  unfold resolveTemplateBase
  dsimp only
  split
  · refine Advances.learn ?_ (.setBaseContainer _ _ _)
    exact (((Advances.refl s).warnAll _).trans (hsettle _ _)).trans
      (inheritTemplate_advances env i _ _ _)
  · exact ((Advances.refl s).warnAll _).learn (.setBaseContainer _ _ _)
  · exact ((Advances.refl s).warnAll _).warn _

theorem resolveBases_advances (env : Env) (i : ClassId) (s : State) :
    Advances D .completing s (resolveBases env settle i s) := by
  have haddBase : ∀ (primary : Bool) (b : ClassId) (t : State),
      Advances D .completing t (addBase i primary b t) := by
    intro primary b t
    refine (Advances.refl t).edit i fun c => ?_
    split
    · exact ⟨rfl, rfl, fun _ _ => rfl⟩
    · exact (BoundClass.SameRecord.addInterface c b).trans (.addInterfaces _ _)
  unfold resolveBases
  extract_lets c byNames
  have hnames : Advances D .completing s (byNames s) := by
    refine (((Advances.refl s).warnAll _).warnIf _ _).trans (.foldl (fun t b _ => ?_) _)
    refine Advances.trans ?_ (haddBase _ _ _)
    split
    · exact .refl t
    · exact hsettle _ t
  split
  · split
    · exact resolveTemplateBase_advances hsettle env i _ s
    · exact hnames
  · exact hnames

end

theorem settleFrom_advances (env : Env) (n : Nat) (i : ClassId) (s : State) :
    Advances D .completing s (settleFrom env n i s) := by
  induction n generalizing i s with
  | zero => exact .refl s
  | succ n ih =>
    unfold settleFrom
    split
    · exact .refl s
    · have hmark : Advances D .completing s { s with settled := i :: s.settled } :=
        (Advances.refl s).aside rfl rfl rfl rfl
      exact hmark.trans (resolveBases_advances ih env i _)

theorem settleAll_advances (env : Env) (s : State) :
    Advances D .completing s (settleAll env s) := by
  refine Advances.foldl (fun t i _ => ?_) s
  dsimp only
  split
  · exact .refl t
  · exact settleFrom_advances env _ i t

/-! ### Completion -/

theorem addImplicitAll_advances (s : State) : Advances D .completing s (addImplicitAll s) := by
  refine Advances.foldlStore (fun t i => ?_) _ s
  have hmake : ∀ u : State, Advances D .completing u
      { u with store := u.store.modify i fun c => c.addFunction (implicitConstructor i c) } :=
    fun u => (Advances.refl u).step (.addLate i fun _ _ => rfl)
  have hcopy : ∀ (u : State) (isPrivate : Bool), Advances D .completing u
      { u with store := u.store.modify i fun c => c.addFunction (implicitCopy i c isPrivate) } :=
    fun u isPrivate => (Advances.refl u).step (.addLate i fun _ _ => rfl)
  unfold addImplicit
  dsimp only
  split
  · split
    · split
      · exact (hmake t).trans (hcopy _ _)
      · exact hmake t
    · split
      · exact hcopy t _
      · exact .refl t
  · exact .refl t

theorem markClassOf_advances (env : Env) (a : ArgumentDecl) {mark : ClassAttr}
    (hmark : mark ∉ BoundClass.summaryMarks) (s : State) :
    Advances D k s (markClassOf env a mark s) := by
  unfold markClassOf
  split
  · exact (Advances.refl s).edit _ fun c => .addAttr c hmark
  · exact .refl s

theorem markHashable_advances (env : Env) (s : State) : Advances D k s (markHashable env s) := by
  refine Advances.foldl (fun t d _ => ?_) s
  split
  · exact markClassOf_advances env _ (by decide) t
  · exact .refl t

theorem markPrintable_advances (env : Env) (s : State) :
    Advances D k s (markPrintable env s) := by
  refine Advances.foldl (fun t d _ => ?_) s
  split
  · split
    · exact markClassOf_advances env _ (by decide) t
    · exact .refl t
  · exact .refl t

theorem addOperator_advances (env : Env) (s : State) (d : FunctionDecl) :
    Advances D .completing s (addOperator env s d) := by
  unfold addOperator
  split
  · exact .refl s
  · split
    · exact .refl s
    · next home objectFirst _ =>
      have hjudge : Advances D .completing s (s.judge env ⟨some home, []⟩ d).2 :=
        judge_advances env s _ d
      split
      · next f t ht =>
        rw [ht] at hjudge
        split
        · exact hjudge
        · have htaken := (judge_declared ht).takeObject objectFirst (d.args.length = 1)
          have hplaced : Function.Declared { takeObject objectFirst (d.args.length = 1) f with
            kind := .normal, visibility := .pub } := ⟨htaken.added, htaken.settled?⟩
          exact hjudge.step (.addLate home fun _ _ => (hplaced.editFunctions _).settled?)
      · next t _ ht =>
        rwa [ht] at hjudge

theorem addStreamOperator_advances (env : Env) (s : State) (d : FunctionDecl) :
    Advances D .completing s (addStreamOperator env s d) := by
  unfold addStreamOperator
  split
  · split
    · next streamed _ _ =>
      have hjudge : Advances D .completing s (s.judge env ⟨some streamed, []⟩ d).2 :=
        judge_advances env s _ d
      split
      · exact .refl s
      · split
        · next f t ht =>
          rw [ht] at hjudge
          split
          · refine hjudge.step (.addLate _ fun _ _ => ?_)
            rw [settled?_editFunctions]
            exact (judge_declared ht).settled?
          · exact hjudge
        · next t _ ht =>
          rwa [ht] at hjudge
    · exact .refl s
  · exact .refl s

theorem addOperators_advances (env : Env) (s : State) :
    Advances D .completing s (addOperators env s) :=
  (Advances.foldl (fun t d _ => addOperator_advances env t d) s).trans
    (.foldl (fun t d _ => addStreamOperator_advances env t d) _)

theorem linkCopies_advances (classes : List ClassId) (s : State) :
    Advances D k s (linkCopies classes s) := by
  refine Advances.foldl (fun t i _ => ?_) s
  refine Advances.trans (t := { t with store := markClonable _ t.store i }) ?_
    (.foldl (fun u k _ => ?_) _)
  · unfold markClonable
    split
    · exact (Advances.refl t).edit i fun c => .addAttr c (by decide)
    · exact .refl t
  · unfold addConversion
    split
    · exact .refl u
    · split
      · exact .refl u
      · split
        · exact (Advances.refl u).edit _ fun c => .addExternalConversion c _
        · exact .refl u

end
end Assembly
end BindingModel
