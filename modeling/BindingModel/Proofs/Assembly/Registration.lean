import BindingModel.Proofs.Assembly.Failure

/-! What assemblies leave in the rules. The registered entries stay in front, enums and enumerators
are appended, and what a lookup found it finds again. -/
namespace BindingModel
open Api Header

namespace Database
variable {db db' : Database} {added : List Entry}

/-- Entries that are registered after others: each is derived, and none before it has its name and
kind. -/
structure Appended (derives : String → EntryDetail Entry → Prop) (before added : List Entry) :
    Prop where
  derived : ∀ e ∈ added, derives e.name e.detail
  fresh : ∀ e ∈ added, ∀ d ∈ before, d.name = e.name → d.kind ≠ e.kind
  distinct : added.Pairwise fun d e => d.name = e.name → d.kind ≠ e.kind

namespace Appended
variable {derives derives' : String → EntryDetail Entry → Prop} {before more : List Entry}

theorem nil : Appended derives before [] :=
  ⟨fun _ he => absurd he List.not_mem_nil, fun _ he => absurd he List.not_mem_nil,
    List.Pairwise.nil⟩

theorem singleton {e : Entry} (hd : derives e.name e.detail)
    (hnew : ∀ d ∈ before, d.name = e.name → d.kind ≠ e.kind) : Appended derives before [e] := by
  refine ⟨fun d hmem => ?_, fun d hmem => ?_, List.pairwise_singleton _ e⟩
  · obtain rfl := List.mem_singleton.mp hmem
    exact hd
  · obtain rfl := List.mem_singleton.mp hmem
    exact hnew

theorem trans (h : Appended derives before added) (k : Appended derives (before ++ added) more) :
    Appended derives before (added ++ more) := by
  refine ⟨fun e he => ?_, fun e he d hd => ?_, ?_⟩
  · exact (List.mem_append.mp he).elim (h.derived e) (k.derived e)
  · rcases List.mem_append.mp he with he | he
    · exact h.fresh e he d hd
    · exact k.fresh e he d (List.mem_append_left _ hd)
  · refine List.pairwise_append.mpr ⟨h.distinct, k.distinct, fun d hd e he => ?_⟩
    exact k.fresh e he d (List.mem_append_right _ hd)

theorem mono (h : Appended derives before added)
    (hle : ∀ name detail, derives name detail → derives' name detail) :
    Appended derives' before added :=
  ⟨fun e he => hle _ _ (h.derived e he), h.fresh, h.distinct⟩

end Appended

theorem Grows.entries {h : Header} (hg : Grows h db db') :
    ∃ added, db'.entries = db.entries ++ added ∧ Appended h.Derives db.entries added := by
  induction hg with
  | refl => exact ⟨[], (List.append_nil _).symm, .nil⟩
  | tail _ hstep ih =>
    obtain ⟨added, heq, happended⟩ := ih
    rcases hstep.entries with hsame | ⟨e, hnext, hd, hnew⟩
    · exact ⟨added, hsame.trans heq, happended⟩
    · rw [heq] at hnew hnext
      exact ⟨added ++ [e], hnext.trans (List.append_assoc _ _ _),
        happended.trans (.singleton hd hnew)⟩

/-! ### What lookups find -/

/-- The lookups of entries by a name. -/
def lookups : List (Database → String → Option Entry) :=
  [findType?, findComplex?, findPrimitive?, findContainer?, findFlags?, findNamespace?,
    findFunction?]

section
variable (hentries : db'.entries = db.entries ++ added)
include hentries

theorem named_append (name : String) :
    db'.named name = db.named name ++ added.filter (·.name == name) := by
  unfold named
  rw [hentries, List.filter_append]

theorem find?_named_append {p : Entry → Bool} {name : String} {e : Entry}
    (h : (db.named name).find? p = some e) : (db'.named name).find? p = some e := by
  rw [named_append hentries, List.find?_append, h, Option.some_or]

variable (hkind : ∀ e ∈ added, e.kind = .enumeration ∨ e.kind = .enumValue)
include hkind

/-- No entry that is added is flags, by its name or by an alias. -/
theorem findFlags?_append (name : String) : db'.findFlags? name = db.findFlags? name := by
  have hnone : added.reverse.find? (·.flagsAlias? == some name) = none := by
    refine List.find?_eq_none.mpr fun e he => ?_
    have hk := hkind e (List.mem_reverse.mp he)
    obtain ⟨id?, n, detail⟩ := e
    cases detail <;> simp_all [Entry.flagsAlias?, Entry.kind, EntryDetail.kind]
  have hflags : (db'.findType? name).filter (·.isKind .flags) =
      (db.findType? name).filter (·.isKind .flags) := by
    unfold findType?
    rw [named_append hentries, List.find?_append]
    cases (db.named name).find? (!·.isKind .function) with
    | some e => rfl
    | none =>
      rw [Option.none_or, Option.filter_none, Option.filter_eq_none_iff]
      intro e he
      have hmem := (List.mem_filter.mp (List.mem_of_find?_eq_some he)).1
      rcases hkind e hmem with hk | hk <;> simp [Entry.isKind, hk]
  unfold findFlags?
  rw [hflags, hentries, List.reverse_append, List.find?_append, hnone, Option.none_or]

/-- What a lookup found it still finds when enums and enumerators were appended. -/
theorem lookup_append {find : Database → String → Option Entry} (hfind : find ∈ lookups)
    {name : String} {e : Entry} (h : find db name = some e) : find db' name = some e := by
  simp only [lookups, List.mem_cons, List.not_mem_nil, or_false] at hfind
  rcases hfind with rfl | rfl | rfl | rfl | rfl | rfl | rfl
  · exact find?_named_append hentries h
  · exact find?_named_append hentries h
  · exact find?_named_append hentries h
  · obtain ⟨hfound, hcontainer⟩ := Option.filter_eq_some_iff.mp h
    unfold findContainer?
    rw [findType?, find?_named_append hentries hfound]
    exact Option.filter_eq_some_iff.mpr ⟨rfl, hcontainer⟩
  · rwa [findFlags?_append hentries hkind]
  · exact find?_named_append hentries h
  · exact find?_named_append hentries h

end
end Database

namespace Assembly

/-! ### Assemblies one after another -/

theorem db_assemble_grows (config : Config) (header : Header) (db : Database) :
    db.Grows header (assemble config header db).db := by
  have hrun := run_outcome (.make config header) { db }
  rw [db_assemble]
  cases h : run (.make config header) { db } with
  | ok classes s => exact (hrun.of_ok h).db
  | error e s => exact (hrun.of_error h).1.db

/-- The rules after assemblies one after another, whatever becomes of each. -/
def assembleAll (units : List (Config × Header)) (db : Database) : Database :=
  units.foldl (fun db u => (assemble u.1 u.2 db).db) db

theorem entries_assembleAll (units : List (Config × Header)) (db : Database) :
    ∃ added, (assembleAll units db).entries = db.entries ++ added ∧
      Database.Appended (fun name detail => ∃ u ∈ units, u.2.Derives name detail) db.entries
        added := by
  induction units generalizing db with
  | nil => exact ⟨[], (List.append_nil _).symm, .nil⟩
  | cons u units ih =>
    obtain ⟨first, hfirst, happended⟩ := (db_assemble_grows u.1 u.2 db).entries
    obtain ⟨rest, hrest, hmore⟩ := ih (assemble u.1 u.2 db).db
    rw [hfirst] at hrest hmore
    refine ⟨first ++ rest, hrest.trans (List.append_assoc _ _ _), .trans ?_ ?_⟩
    · exact happended.mono fun _ _ hd => ⟨u, List.mem_cons_self, hd⟩
    · exact hmore.mono fun _ _ ⟨v, hv, hd⟩ => ⟨v, List.mem_cons_of_mem u hv, hd⟩

/-- Assemblies leave the registered entries where they are. What they append is a private enum or an
enumerator of one of their headers or a number that a template argument stands for, each the first
enum or enumerator of its name; and every lookup finds what it found. -/
theorem assembleAll_appends (units : List (Config × Header)) (db : Database) :
    (∃ added, (assembleAll units db).entries = db.entries ++ added ∧
      Database.Appended (fun name detail => ∃ u ∈ units, u.2.Derives name detail) db.entries
        added) ∧
    ∀ find ∈ Database.lookups, ∀ name e, find db name = some e →
      find (assembleAll units db) name = some e := by
  obtain ⟨added, hentries, happended⟩ := entries_assembleAll units db
  refine ⟨⟨added, hentries, happended⟩, fun find hfind name e he => ?_⟩
  refine Database.lookup_append hentries (fun e he => ?_) hfind he
  obtain ⟨u, -, hd⟩ := happended.derived e he
  exact hd.kind_eq

end Assembly
end BindingModel
