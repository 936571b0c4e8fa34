import BindingModel.Header.Lookup
import BindingModel.Rule.Database
import Mathlib.Data.List.Induction
import Mathlib.Logic.Relation

/-! How an assembly changes a rule database. Registered entries stay as and where they are, and only
enums and enumerators are added. -/
namespace BindingModel

/-- The enum is declared in the scope or in one inside it. -/
inductive Header.Scope.DeclaresEnum : Scope → EnumDecl → Prop
  | here {s : Scope} {d : EnumDecl} (hd : d ∈ s.decls.enums) : s.DeclaresEnum d
  | inClass {s : Scope} {c : ClassDecl} {d : EnumDecl} (hc : c ∈ s.classes)
      (hd : (ofClass c).DeclaresEnum d) : s.DeclaresEnum d
  | inNamespace {n m : NamespaceDecl} {d : EnumDecl} (hm : m ∈ n.namespaces)
      (hd : (ofNamespace m).DeclaresEnum d) : (ofNamespace n).DeclaresEnum d

namespace Header

def DeclaresEnum (h : Header) (d : EnumDecl) : Prop := (Scope.ofNamespace h.global).DeclaresEnum d

/-- What an assembly of the header may add to the rules: a private enum, an enumerator of an enum,
or a number that a template argument stands for. -/
inductive Derives (h : Header) : String → EntryDetail Entry → Prop
  | privateEnum {d : EnumDecl} (hd : h.DeclaresEnum d) (hpriv : d.access = .priv) (scope : String) :
      h.Derives (scope ++ d.name) .enumeration
  | enumerator {d : EnumDecl} {v : Enumerator} {e : Entry} (hd : h.DeclaresEnum d)
      (hv : v ∈ d.enumerators) (he : e.kind = .enumeration) (scope : String) :
      h.Derives (scope ++ v.name) (.enumValue (toString v.value) (some e))
  | number {name : String} (hne : name ≠ "") (hdigits : name.toList.all (·.isDigit)) :
      h.Derives name (.enumValue name none)

theorem Derives.kind_eq {h : Header} {name : String} {detail : EntryDetail Entry}
    (hd : h.Derives name detail) : detail.kind = .enumeration ∨ detail.kind = .enumValue := by
  cases hd with
  | privateEnum => exact .inl rfl
  | enumerator => exact .inr rfl
  | number => exact .inr rfl

theorem Derives.kind_ne_typedef {h : Header} {name : String} {detail : EntryDetail Entry}
    (hd : h.Derives name detail) : detail.kind ≠ .typedef := by
  rcases hd.kind_eq with hk | hk <;> simp [hk]

end Header

namespace Database

/-- What is known of an entry is completed, no code is generated for it any more, or an enum or
enumerator is added under a name that none has. -/
inductive Step (h : Header) (db : Database) : Database → Prop
  | disable (e : Entry) : Step h db (db.setCodegen e noCode)
  | setInclude (e : Entry) (path : String) : Step h db (db.setInclude e path)
  | setNullValue (e : Entry) (name : String) : Step h db (db.setNullValue e name)
  | setReferenced (e target : Entry) : Step h db (db.setReferenced e target)
  | setBaseContainer (e container : Entry) : Step h db (db.setBaseContainer e container)
  | addMod (e : Entry) (m : FunctionMod) : Step h db (db.addMod e m)
  | derive {name : String} {detail : EntryDetail Entry} (hd : h.Derives name detail)
      (hnew : ∀ e ∈ db.entries, e.name = name → e.kind ≠ detail.kind) :
      Step h db (db.add name detail).2

def Grows (h : Header) : Database → Database → Prop := Relation.ReflTransGen (Step h)

/-- The rules describe the entry: it is registered, or the target of a registered typedef. -/
def Describes (db : Database) (e : Entry) : Prop :=
  e ∈ db.entries ∨ ∃ t ∈ db.typedefs, t.typedefTarget? = some e

variable {h : Header} {db db' : Database}

/-! ### One step -/

theorem modify_frame (db : Database) (e : Entry) (f : EntryState → EntryState) :
    (db.modify e f).entries = db.entries ∧ (db.modify e f).typedefs = db.typedefs ∧
      (db.modify e f).globalAdded = db.globalAdded := by
  unfold modify
  split <;> exact ⟨rfl, rfl, rfl⟩

theorem add_frame (db : Database) (name : String) {detail : EntryDetail Entry}
    (h : detail.kind ≠ .typedef) :
    (db.add name detail).2.typedefs = db.typedefs ∧
      (db.add name detail).2.globalAdded = db.globalAdded ∧
      ((db.add name detail).2.entries = db.entries ∨
        (db.add name detail).2.entries = db.entries ++ [(db.add name detail).1]) := by
  unfold add register create
  dsimp only
  split
  · next heq =>
    cases heq
    exact absurd rfl h
  · split
    · exact ⟨rfl, rfl, .inl rfl⟩
    · exact ⟨rfl, rfl, .inr rfl⟩

/-- A step changes what is known of one entry, or adds an enum or enumerator. -/
theorem Step.change (hs : Step h db db') :
    (∃ e f, db' = db.modify e f) ∨ db' = db ∨ ∃ name detail, db' = (db.add name detail).2 ∧
      h.Derives name detail ∧ ∀ e ∈ db.entries, e.name = name → e.kind ≠ detail.kind := by
  have hite : ∀ (b : Bool) (e : Entry) (f : EntryState → EntryState),
      (∃ e' f', (if b then db.modify e f else db) = db.modify e' f') ∨
        (if b then db.modify e f else db) = db := by
    intro b e f
    cases b
    · exact .inr rfl
    · exact .inl ⟨e, f, rfl⟩
  cases hs with
  | disable e => exact .inl ⟨e, _, rfl⟩
  | setInclude e path => exact .inl ⟨e, _, rfl⟩
  | setNullValue e name => exact (hite _ _ _).imp_right .inl
  | setReferenced e target => exact (hite _ _ _).imp_right .inl
  | setBaseContainer e container => exact (hite _ _ _).imp_right .inl
  | addMod e m => exact (hite _ _ _).imp_right .inl
  | derive hd hnew => exact .inr (.inr ⟨_, _, rfl, hd, hnew⟩)

/-- Entries are appended, one at a time. Each is the first enum or enumerator of its name. -/
theorem Step.entries (hs : Step h db db') :
    db'.entries = db.entries ∨ ∃ e, db'.entries = db.entries ++ [e] ∧ h.Derives e.name e.detail ∧
      ∀ d ∈ db.entries, d.name = e.name → d.kind ≠ e.kind := by
  rcases hs.change with ⟨e, f, rfl⟩ | rfl | ⟨name, detail, rfl, hd, hnew⟩
  · exact .inl (modify_frame db e f).1
  · exact .inl rfl
  · obtain ⟨-, -, hsame | hnext⟩ := add_frame db name hd.kind_ne_typedef
    · exact .inl hsame
    · exact .inr ⟨_, hnext, hd, hnew⟩

theorem Step.frame (hs : Step h db db') :
    db'.typedefs = db.typedefs ∧ db'.globalAdded = db.globalAdded := by
  rcases hs.change with ⟨e, f, rfl⟩ | rfl | ⟨name, detail, rfl, hd, -⟩
  · exact (modify_frame db e f).2
  · exact ⟨rfl, rfl⟩
  · obtain ⟨ht, hg, -⟩ := add_frame db name hd.kind_ne_typedef
    exact ⟨ht, hg⟩

theorem Step.rejections (hs : Step h db db') : db'.rejections = db.rejections := by
  rcases hs.change with ⟨e, f, rfl⟩ | rfl | ⟨name, detail, rfl, hd, -⟩
  · unfold modify
    split <;> rfl
  · rfl
  · unfold add register create
    dsimp only
    split
    · next heq =>
      cases heq
      exact absurd rfl hd.kind_ne_typedef
    · split <;> rfl

theorem Step.globalMods (hs : Step h db db') : db'.globalMods = db.globalMods := by
  rcases hs.change with ⟨e, f, rfl⟩ | rfl | ⟨name, detail, rfl, hd, -⟩
  · unfold modify
    split <;> rfl
  · rfl
  · unfold add register create
    dsimp only
    split
    · next heq =>
      cases heq
      exact absurd rfl hd.kind_ne_typedef
    · split <;> rfl

theorem Step.describes_iff (hs : Step h db db') {e : Entry} (he : e.isComplex = true) :
    db'.Describes e ↔ db.Describes e := by
  have hcls : ∀ k, k = .enumeration ∨ k = .enumValue → e.kind ≠ k := by
    intro k hk hek
    unfold Entry.isComplex Entry.rules? at he
    unfold Entry.kind EntryDetail.kind at hek
    cases hd : e.detail with
    | complex kind rules =>
      rw [hd] at hek
      rcases hk with rfl | rfl <;> cases kind <;> cases hek
    | _ =>
      rw [hd] at he
      cases he
  unfold Describes
  rw [hs.frame.1]
  rcases hs.entries with heq | ⟨d, heq, hd, -⟩
  · rw [heq]
  · have hne : e ≠ d := fun hed => hcls d.kind hd.kind_eq (hed ▸ rfl)
    rw [heq]
    simp [hne]

theorem Step.describes (hs : Step h db db') {e : Entry} (he : db.Describes e) :
    db'.Describes e := by
  unfold Describes
  rw [hs.frame.1]
  refine he.imp_left fun he => ?_
  rcases hs.entries with heq | ⟨d, heq, -⟩
  · rwa [heq]
  · rw [heq]
    exact List.mem_append_left _ he

/-! ### Any number of steps -/

namespace Grows

theorem refl (db : Database) : Grows h db db := Relation.ReflTransGen.refl

theorem trans {db'' : Database} (hg : Grows h db db') (k : Grows h db' db'') : Grows h db db'' :=
  Relation.ReflTransGen.trans hg k

theorem step (hs : Step h db db') : Grows h db db' := .single hs

theorem foldl {α : Type} {f : Database → α → Database} {l : List α}
    (hf : ∀ db, ∀ a ∈ l, Grows h db (f db a)) (db : Database) : Grows h db (l.foldl f db) :=
  List.foldlRecOn l f (refl db) fun d hd a ha => hd.trans (hf d a ha)

theorem frame (hg : Grows h db db') :
    db'.typedefs = db.typedefs ∧ db'.globalAdded = db.globalAdded := by
  induction hg with
  | refl => exact ⟨rfl, rfl⟩
  | tail _ hstep ih => exact ⟨hstep.frame.1.trans ih.1, hstep.frame.2.trans ih.2⟩

theorem entries_prefix (hg : Grows h db db') : db.entries <+: db'.entries := by
  induction hg with
  | refl => exact List.prefix_rfl
  | tail _ hstep ih =>
    rcases hstep.entries with heq | ⟨e, heq, -⟩
    · rwa [heq]
    · exact heq ▸ ih.trans (List.prefix_append _ _)

theorem rejections (hg : Grows h db db') : db'.rejections = db.rejections := by
  induction hg with
  | refl => rfl
  | tail _ hstep ih => exact hstep.rejections.trans ih

theorem globalMods (hg : Grows h db db') : db'.globalMods = db.globalMods := by
  induction hg with
  | refl => rfl
  | tail _ hstep ih => exact hstep.globalMods.trans ih

theorem describes (hg : Grows h db db') {e : Entry} (he : db.Describes e) : db'.Describes e := by
  induction hg with
  | refl => exact he
  | tail _ hstep ih => exact hstep.describes ih

/-- The classes that the rules describe are those that they described from the start. -/
theorem describes_iff (hg : Grows h db db') {e : Entry} (he : e.isComplex = true) :
    db'.Describes e ↔ db.Describes e := by
  induction hg with
  | refl => rfl
  | tail _ hstep ih => exact (hstep.describes_iff he).trans ih

end Grows

/-! ### What lookups find -/

theorem describes_of_named {name : String} {e : Entry} (h : e ∈ db.named name) :
    db.Describes e :=
  .inl ((List.mem_filter.mp h).1)

theorem kind_ne_of_named_any {name : String} {k : EntryKind}
    (h : (db.named name).any (·.isKind k) = false) :
    ∀ e ∈ db.entries, e.name = name → e.kind ≠ k := by
  intro e he hname hk
  have hany : (db.named name).any (·.isKind k) = true := by
    refine List.any_eq_true.mpr ⟨e, ?_, by simp [Entry.isKind, hk]⟩
    simp [named, he, hname]
  rw [h] at hany
  cases hany

end Database
end BindingModel
