import BindingModel.Proofs.Assembly.Overloads
import BindingModel.Proofs.Assembly.Registration

/-! Which entries the arguments of an instance are bound to, and in which positions. -/
namespace BindingModel
open Api

/-- A name that a number in the place of a template argument has. -/
def IsNumber (name : String) : Prop := name ≠ "" ∧ name.toList.all (·.isDigit) = true

instance (name : String) : Decidable (IsNumber name) := inferInstanceAs (Decidable (_ ∧ _))

theorem not_isNumber_qualified (scope name : String) : ¬ IsNumber (scope ++ "::" ++ name) := by
  rintro ⟨-, hdigits⟩
  simp [String.toList_append] at hdigits

namespace Database

/-- Entries of numbers may have been registered behind the others. -/
structure NumbersAdded (db db' : Database) : Prop where
  entries : ∃ l, db'.entries = db.entries ++ l ∧
    ∀ e ∈ l, IsNumber e.name ∧ e.detail = .enumValue e.name none

namespace NumbersAdded
variable {db db' db'' : Database}

theorem of_entries (h : db'.entries = db.entries) : db.NumbersAdded db' :=
  ⟨[], h.trans (List.append_nil _).symm, fun _ he => absurd he List.not_mem_nil⟩

theorem trans (h : db.NumbersAdded db') (k : db'.NumbersAdded db'') : db.NumbersAdded db'' := by
  obtain ⟨l, hl, hnumbers⟩ := h
  obtain ⟨l', hl', hnumbers'⟩ := k
  refine ⟨l ++ l', by rw [hl', hl, List.append_assoc], fun e he => ?_⟩
  exact (List.mem_append.mp he).elim (hnumbers e) (hnumbers' e)

/-- A header without enums adds nothing but numbers. -/
theorem of_grows (h : Grows {} db db') : db.NumbersAdded db' := by
  obtain ⟨l, hl, happended⟩ := h.entries
  refine ⟨l, hl, fun e he => ?_⟩
  have hderived := happended.derived e he
  have hnone : ∀ d, ¬ Header.DeclaresEnum {} d := by
    intro d hd
    cases hd with
    | here hd => cases hd
    | inClass hc => cases hc
    | inNamespace hm => cases hm
  generalize e.name = name at hderived ⊢
  generalize e.detail = detail at hderived ⊢
  cases hderived with
  | privateEnum hd => exact absurd hd (hnone _)
  | enumerator hd => exact absurd hd (hnone _)
  | number hne hdigits => exact ⟨⟨hne, hdigits⟩, rfl⟩

variable (h : db.NumbersAdded db')
include h

theorem findType?_of_some {name : String} {e : Entry} (he : db.findType? name = some e) :
    db'.findType? name = some e := by
  obtain ⟨l, hl, -⟩ := h
  exact find?_named_append hl he

theorem findType?_of_none {name : String} {e : Entry} (hnone : db.findType? name = none)
    (he : db'.findType? name = some e) :
    IsNumber name ∧ e.name = name ∧ e.detail = .enumValue name none := by
  obtain ⟨l, hl, hnumbers⟩ := h
  unfold findType? at hnone he
  rw [named_append hl, List.find?_append, hnone, Option.none_or] at he
  obtain ⟨hmem, hname⟩ := List.mem_filter.mp (List.mem_of_find?_eq_some he)
  obtain rfl : e.name = name := eq_of_beq hname
  obtain ⟨hnumber, hdetail⟩ := hnumbers e hmem
  exact ⟨hnumber, rfl, hdetail⟩

theorem findType?_eq {name : String} (hname : ¬ IsNumber name) :
    db'.findType? name = db.findType? name := by
  cases hold : db.findType? name with
  | some e => exact h.findType?_of_some hold
  | none =>
    cases hnew : db'.findType? name with
    | none => rfl
    | some e => exact absurd (h.findType?_of_none hold hnew).1 hname

end NumbersAdded
end Database

namespace Assembly

theorem findSome?_congr {α β : Type} {f g : α → Option β} {l : List α} (h : ∀ a ∈ l, f a = g a) :
    l.findSome? f = l.findSome? g := by
  induction l with
  | nil => rfl
  | cons a l ih =>
    rw [List.findSome?_cons, List.findSome?_cons, h a List.mem_cons_self,
      ih fun b hb => h b (List.mem_cons_of_mem a hb)]

/-! ### The entry of an argument -/

section
variable {s : State} {c x : ClassId} {name : String} (hname : IsNumber name)
include hname

theorem argumentEntry_of_findType? {e : Entry} (he : s.db.findType? name = some e) :
    (argumentEntry s c x name).1 = some e := by
  unfold IsNumber at hname
  unfold argumentEntry
  rw [if_pos hname, he]

/-- A number has an entry, or gets one. -/
theorem argumentEntry_of_number {e : Entry} (he : (argumentEntry s c x name).1 = some e) :
    s.db.findType? name = some e ∨
      s.db.findType? name = none ∧ e.name = name ∧ e.detail = .enumValue name none := by
  unfold IsNumber at hname
  unfold argumentEntry at he
  rw [if_pos hname] at he
  cases hfound : s.db.findType? name with
  | some e' =>
    rw [hfound] at he
    exact .inl he
  | none =>
    rw [hfound] at he
    obtain rfl := Option.some.inj he
    exact .inr ⟨rfl, rfl, rfl⟩

theorem isSome_argumentEntry : (argumentEntry s c x name).1.isSome = true := by
  unfold IsNumber at hname
  unfold argumentEntry
  rw [if_pos hname]
  split <;> rfl

end

/-- An entry is found for the argument as seen from the instance. -/
def hasEntry (s : State) (c x : ClassId) (a : TypeExpr) : Bool :=
  (argumentEntry s c x a.qualifiedName).1.isSome

/-- The entry that an argument of that name is bound to, as seen from the instance: the one found, or
for a number that has no entry a new one. -/
inductive Means (s : State) (c x : ClassId) (name : String) (e : Entry) : Prop
  | found (h : (argumentEntry s c x name).1 = some e)
  | number (hname : IsNumber name) (hnew : s.db.findType? name = none) (he : e.name = name)
      (hdetail : e.detail = .enumValue name none)

/-- The classes have the same names in the same scopes, and no types were registered but numbers. -/
structure SameScopes (s t : State) : Prop where
  isLive : t.store.isLive = s.store.isLive
  head : ∀ c, (t.store.get c).head = (s.store.get c).head
  enclosing? : ∀ c, (t.store.get c).enclosing? = (s.store.get c).enclosing?
  numbers : s.db.NumbersAdded t.db

namespace SameScopes
variable {s t u : State}

theorem of_settling {active : List ClassId} (h : Settling active s t)
    (hdb : s.db.Grows {} t.db) : SameScopes s t :=
  ⟨h.isLive, fun c => (h.gains c).head, fun c => (h.gains c).enclosing?, .of_grows hdb⟩

theorem of_store (hstore : t.store = s.store) (hentries : t.db.entries = s.db.entries) :
    SameScopes s t := by
  refine ⟨?_, fun c => ?_, fun c => ?_, .of_entries hentries⟩ <;> rw [hstore]

theorem trans (h : SameScopes s t) (k : SameScopes t u) : SameScopes s u :=
  ⟨k.isLive.trans h.isLive, fun c => (k.head c).trans (h.head c),
    fun c => (k.enclosing? c).trans (h.enclosing? c), h.numbers.trans k.numbers⟩

variable (h : SameScopes s t)
include h

theorem qualifiedName (c : ClassId) :
    (t.store.get c).qualifiedName = (s.store.get c).qualifiedName :=
  congrArg Entry.name (BoundClass.entry_eq_of_head (h.head c))

theorem store_enclosing? (c : ClassId) : t.store.enclosing? c = s.store.enclosing? c := by
  unfold ClassStore.enclosing? ClassStore.follow?
  rw [h.enclosing?, h.isLive]

/-- What is no number means the same. -/
theorem argumentEntry_eq (c x : ClassId) {name : String} (hname : ¬ IsNumber name) :
    (argumentEntry t c x name).1 = (argumentEntry s c x name).1 := by
  have hfind : ∀ n ∈ ([c, x] ++ (s.store.enclosing? c).toList).map
      (fun i => (s.store.get i).qualifiedName ++ "::" ++ name) ++ [name],
      t.db.findType? n = s.db.findType? n := by
    intro n hn
    refine h.numbers.findType?_eq fun hnumber => ?_
    rcases List.mem_append.mp hn with hn | hn
    · obtain ⟨i, -, rfl⟩ := List.mem_map.mp hn
      exact not_isNumber_qualified _ _ hnumber
    · exact hname (List.mem_singleton.mp hn ▸ hnumber)
  unfold IsNumber at hname
  unfold argumentEntry
  rw [if_neg hname, if_neg hname]
  dsimp only
  simp only [h.qualifiedName, h.store_enclosing?]
  exact findSome?_congr hfind

theorem hasEntry_eq (c x : ClassId) (a : TypeExpr) : hasEntry t c x a = hasEntry s c x a := by
  unfold hasEntry
  by_cases hname : IsNumber a.qualifiedName
  · rw [isSome_argumentEntry hname, isSome_argumentEntry hname]
  · rw [h.argumentEntry_eq c x hname]

theorem means {c x : ClassId} {name : String} {e : Entry}
    (he : (argumentEntry t c x name).1 = some e) : Means s c x name e := by
  by_cases hname : IsNumber name
  · rcases argumentEntry_of_number (s := t) hname he with hfound | ⟨hnew, hn, hdetail⟩
    · cases hold : s.db.findType? name with
      | some e' =>
        obtain rfl := Option.some.inj ((h.numbers.findType?_of_some hold).symm.trans hfound)
        exact .found (argumentEntry_of_findType? hname hold)
      | none =>
        obtain ⟨-, hn, hdetail⟩ := h.numbers.findType?_of_none hold hfound
        exact .number hname hold hn hdetail
    · refine .number hname ?_ hn hdetail
      by_contra hold
      obtain ⟨e', hold⟩ := Option.ne_none_iff_exists'.mp hold
      rw [h.numbers.findType?_of_some hold] at hnew
      cases hnew
  · rw [h.argumentEntry_eq c x hname] at he
    exact .found he

end SameScopes

/-! ### Arguments in their positions -/

/-- The argument is bound to an entry with the constness, the indirections and the reference that it
is written with. -/
inductive Binds (s : State) (c x : ClassId) (a : TypeExpr) : BoundType → Prop
  | intro {e : Entry} (he : Means s c x a.qualifiedName e) :
      Binds s c x a (BoundType.decided
        { entry := e, isConst := a.isConst, ref := a.ref, pointers := a.pointers })

theorem argumentEntry_sameScopes (s : State) (c x : ClassId) (name : String) :
    SameScopes s (argumentEntry s c x name).2 :=
  .of_settling (.of_quiet (argumentEntry_quiet s c x name) : Settling [] s _)
    (argumentEntry_evolves (h := {}) s c x name).db

/-- The arguments that have an entry are bound in their order, whatever numbers were met before. -/
theorem bindArguments_binds {s u : State} (h : SameScopes u s) (c x : ClassId) (t : TypeExpr)
    (l : List TypeExpr) :
    List.Forall₂ (Binds u c x) (l.filter (hasEntry u c x)) (bindArguments c x t l s).1 := by
  induction l generalizing s with
  | nil => exact .nil
  | cons a l ih =>
    have hsome : hasEntry u c x a = (argumentEntry s c x a.qualifiedName).1.isSome :=
      (h.hasEntry_eq c x a).symm
    have hnext := h.trans (argumentEntry_sameScopes s c x a.qualifiedName)
    unfold bindArguments
    split
    · next v hentry =>
      rw [hentry] at hsome hnext
      rw [List.filter_cons_of_neg (by rw [hsome]; exact Bool.false_ne_true)]
      exact ih (hnext.trans (.of_store rfl rfl))
    · next e v hentry =>
      rw [hentry] at hsome hnext
      rw [List.filter_cons_of_pos hsome]
      refine .cons (.intro (h.means ?_)) (ih hnext)
      rw [hentry]

theorem bindInstance_binds {s u : State} (h : SameScopes u s) (i t : ClassId)
    (written : TypeExpr) : List.Forall₂ (Binds u i t) (written.args.filter (hasEntry u i t))
      (bindInstance i t written s).1 := by
  have hmarked : ∀ f : BoundClass → BoundClass, (∀ c, (f c).ties = c.ties) →
      SameScopes s (s.modifyClass i f) := fun f hf =>
    .of_settling (.of_quiet ((Quiet.refl s).modifyClass i hf) : Settling [] s _) (.refl s.db)
  refine bindArguments_binds (h.trans (hmarked _ fun c => ?_)) i t written written.args
  split <;> rfl

/-- What is kept of a list stands behind what is kept before it. -/
theorem getElem?_filter_countP {α : Type} {p : α → Bool} {l : List α} {j : Nat} {a : α}
    (ha : l[j]? = some a) (hp : p a = true) : (l.filter p)[(l.take j).countP p]? = some a := by
  induction l generalizing j with
  | nil => cases ha
  | cons b l ih =>
    cases j with
    | zero =>
      obtain rfl := Option.some.inj ha
      rw [List.filter_cons_of_pos hp]
      rfl
    | succ j =>
      have hrest := ih ha
      rw [List.take_succ_cons]
      by_cases hb : p b = true
      · rw [List.filter_cons_of_pos hb, List.countP_cons_of_pos hb]
        exact hrest
      · rw [List.filter_cons_of_neg hb, List.countP_cons_of_neg hb]
        exact hrest

/-- An argument is bound in the position that is left when those without entry are taken out. -/
theorem getElem?_of_binds {s : State} {c x : ClassId} {l : List TypeExpr}
    {bindings : List BoundType} (h : List.Forall₂ (Binds s c x) (l.filter (hasEntry s c x)) bindings)
    {j : Nat} {a : TypeExpr} (ha : l[j]? = some a) (hentry : hasEntry s c x a = true) :
    ∃ b, bindings[(l.take j).countP (hasEntry s c x)]? = some b ∧ Binds s c x a b := by
  have hplace := getElem?_filter_countP ha hentry
  obtain ⟨hlength, hrelated⟩ := List.forall₂_iff_get.mp h
  obtain ⟨hlt, hget⟩ := List.getElem?_eq_some_iff.mp hplace
  refine ⟨_, List.getElem?_eq_getElem (hlength ▸ hlt), ?_⟩
  have hbinds := hrelated _ hlt (hlength ▸ hlt)
  simp only [List.get_eq_getElem] at hbinds
  rwa [hget] at hbinds

end Assembly
end BindingModel
