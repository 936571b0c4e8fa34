import BindingModel.Proofs.Catalog
import BindingModel.Proofs.Rule.Candidates
import BindingModel.Proofs.Rule.Learning
import BindingModel.Rule.IndexedDatabase
import Mathlib.Data.List.Sort

/-! What a rule database holds after entries were created and registered in any way: every entry
once, in the order of its first registration. A typedef counts as registered with its target, and so
on to the end of the chain. The database with an index holds the same. -/
namespace BindingModel

/-- The list has each of the given values once, in the order in which they first came. -/
structure Collects {α : Type} (given kept : List α) : Prop where
  nodup : kept.Nodup
  mem_iff : ∀ a, a ∈ kept ↔ a ∈ given
  ordered : kept.Pairwise fun a b => ∃ front rest, given = front ++ a :: rest ∧ b ∉ front

namespace Collects
variable {α : Type} {given kept : List α} {a : α}

theorem nil : Collects ([] : List α) [] := ⟨.nil, fun _ => .rfl, .nil⟩

theorem concat (h : Collects given kept) (ha : a ∉ kept) :
    Collects (given ++ [a]) (kept ++ [a]) where
  nodup := by
    apply List.Nodup.append h.nodup (List.nodup_singleton a)
    simpa using ha
  mem_iff b := by rw [List.mem_append, List.mem_append, h.mem_iff]
  ordered := by
    apply List.pairwise_append.mpr
    refine ⟨h.ordered.imp ?_, List.pairwise_singleton _ _, ?_⟩
    · rintro b c ⟨front, rest, rfl, hc⟩
      exact ⟨front, rest ++ [a], by simp, hc⟩
    · intro b hb c hc
      obtain rfl := List.mem_singleton.mp hc
      obtain ⟨front, rest, rfl⟩ := List.append_of_mem ((h.mem_iff b).mp hb)
      have hfront : c ∉ front := by
        intro hc
        exact ha ((h.mem_iff c).mpr (List.mem_append_left _ hc))
      exact ⟨front, rest ++ [c], by simp, hfront⟩

/-- What came before changes nothing. -/
theorem append_of_subset {more : List α} (h : Collects given kept) (hmore : more ⊆ kept) :
    Collects (given ++ more) kept where
  nodup := h.nodup
  mem_iff b := by
    rw [List.mem_append, ← h.mem_iff]
    constructor
    · exact .inl
    · rintro (hb | hb)
      · exact hb
      · exact hmore hb
  ordered := by
    apply h.ordered.imp
    rintro b c ⟨front, rest, rfl, hc⟩
    exact ⟨front, rest ++ more, by simp, hc⟩

end Collects

namespace Entry

/-- What a typedef stands for in the end. Any other entry stands for itself. -/
def final (e : Entry) : Entry :=
  match e with
  | ⟨_, _, .typedef _ target⟩ => target.final
  | e => e

/-- The typedefs from an entry to what it stands for in the end. -/
def chain (e : Entry) : List Entry :=
  match e with
  | ⟨id?, name, .typedef source target⟩ => ⟨id?, name, .typedef source target⟩ :: target.chain
  | _ => []

variable {d e : Entry}

theorem kind_ne_typedef (h : ∀ id? name source target, e ≠ ⟨id?, name, .typedef source target⟩) :
    e.kind ≠ .typedef := by
  obtain ⟨id?, name, detail⟩ := e
  cases detail with
  | typedef source target => exact absurd rfl (h id? name source target)
  | complex kind rules => cases kind <;> simp [kind, EntryDetail.kind, ClassKind.kind]
  | _ => simp [kind, EntryDetail.kind]

theorem final_kind (e : Entry) : e.final.kind ≠ .typedef := by
  fun_induction final e with
  | case1 id? name source target ih => exact ih
  | case2 e hne => exact kind_ne_typedef hne

theorem of_mem_chain (h : d ∈ e.chain) :
    d.chain <:+ e.chain ∧ d.final = e.final ∧ d.kind = .typedef := by
  fun_induction chain e with
  | case1 id? name source target ih =>
    rcases List.mem_cons.mp h with rfl | h
    · rw [chain.eq_1]
      exact ⟨List.suffix_rfl, rfl, rfl⟩
    · obtain ⟨hchain, hfinal, hkind⟩ := ih h
      refine ⟨hchain.trans (List.suffix_cons _ _), ?_, hkind⟩
      rw [hfinal, final.eq_1]
  | case2 => cases h

end Entry

namespace Database

/-- Entries were created in a new database and registered one after the other: at once, or later and
any number of times. The target of a typedef was created before. -/
inductive Registered : Database → List Entry → Prop
  | new : Registered initial initial.entries
  | make {db : Database} {given : List Entry} (h : Registered db given) (name : String)
      {detail : EntryDetail Entry} (mods : List FunctionMod)
      (ht : ∀ source target, detail = .typedef source target → db.Owns target) :
      Registered (db.create name detail mods).2 given
  | add {db : Database} {given : List Entry} (h : Registered db given) (name : String)
      {detail : EntryDetail Entry}
      (ht : ∀ source target, detail = .typedef source target → db.Owns target) :
      Registered (db.add name detail).2 (given ++ [(db.add name detail).1])
  | share {db : Database} {given : List Entry} (h : Registered db given) {e : Entry}
      (he : db.Owns e) : Registered (db.register e) (given ++ [e])

/-- The database has what was registered, and all that a typedef leads to is its own. -/
structure Consistent (db : Database) (given : List Entry) : Prop where
  closed : ∀ e, db.Owns e → ∀ d ∈ e.final :: e.chain, db.Owns d
  given_owns : ∀ e ∈ given, db.Owns e
  entries : Collects (given.map Entry.final) db.entries
  typedefs : Collects (given.flatMap Entry.chain) db.typedefs

variable {db own : Database} {e : Entry} {given finals chains : List Entry}

/-- The step of a registration. All entries belong to one database, and of a typedef that is
registered the rest of the chain is too. -/
theorem collects_register (hentries : Collects finals db.entries)
    (htypedefs : Collects chains db.typedefs) (hdb : ∀ d ∈ db.entries ++ db.typedefs, own.Owns d)
    (he : ∀ d ∈ e.final :: e.chain, own.Owns d)
    (hchain : ∀ d ∈ e.chain, d ∈ db.typedefs → d.final ∈ db.entries ∧ d.chain ⊆ db.typedefs) :
    Collects (finals ++ [e.final]) (db.register e).entries ∧
      Collects (chains ++ e.chain) (db.register e).typedefs := by
  fun_induction register db e generalizing chains with
  | case1 db id? name source target e =>
    rename_i hany
    obtain ⟨d, hd, hsame⟩ := List.any_eq_true.mp hany
    have hmem : e ∈ e.chain := List.mem_cons_self
    have heq : d = e := Owns.eq_of_same (hdb d (List.mem_append_right _ hd))
      (he e (List.mem_cons_of_mem _ hmem)) hsame
    obtain ⟨hfinal, hsub⟩ := hchain e hmem (heq ▸ hd)
    exact ⟨hentries.append_of_subset (List.cons_subset.mpr ⟨hfinal, List.nil_subset _⟩),
      htypedefs.append_of_subset hsub⟩
  | case2 db id? name source target e hany =>
    rename_i ih
    have hown : own.Owns e := he e (List.mem_cons_of_mem _ List.mem_cons_self)
    have hnew : e ∉ db.typedefs := by
      intro hmem
      exact hany (List.any_eq_true.mpr ⟨e, hmem, hown.same_self⟩)
    -- The chain goes on with other typedefs, so that what was known of them is still so.
    have hother : ∀ d ∈ target.chain, d ≠ e := by
      rintro d hd rfl
      have hlength := (Entry.of_mem_chain hd).1.length_le
      have hcons : e.chain.length = target.chain.length + 1 := rfl
      omega
    have hrest := ih hentries (htypedefs.concat hnew) ?_ ?_ ?_
    · rw [List.append_assoc] at hrest
      exact hrest
    · rw [← List.append_assoc, List.forall_mem_append]
      exact ⟨hdb, by simpa using hown⟩
    · intro d hd
      rcases List.mem_cons.mp hd with rfl | hd
      · exact he _ List.mem_cons_self
      · exact he d (List.mem_cons_of_mem _ (List.mem_cons_of_mem _ hd))
    · intro d hd hmem
      have hold : d ∈ db.typedefs := by
        rcases List.mem_append.mp hmem with hmem | hmem
        · exact hmem
        · exact absurd (List.mem_singleton.mp hmem) (hother d hd)
      obtain ⟨hfinal, hsub⟩ := hchain d (List.mem_cons_of_mem _ hd) hold
      exact ⟨hfinal, List.subset_append_of_subset_left _ hsub⟩
  | case3 db e hne hany =>
    have hfinal : e.final = e := Entry.final.eq_2 e hne
    have hnone : e.chain = [] := Entry.chain.eq_2 e hne
    obtain ⟨d, hd, hsame⟩ := List.any_eq_true.mp hany
    have heq : d = e := Owns.eq_of_same (hdb d (List.mem_append_left _ hd))
      (he e (by simp [hfinal])) hsame
    rw [hfinal, hnone, List.append_nil]
    exact ⟨hentries.append_of_subset (by simpa [← heq] using hd), htypedefs⟩
  | case4 db e hne hany =>
    have hfinal : e.final = e := Entry.final.eq_2 e hne
    have hnone : e.chain = [] := Entry.chain.eq_2 e hne
    have hown : own.Owns e := he e (by simp [hfinal])
    have hnew : e ∉ db.entries := by
      intro hmem
      exact hany (List.any_eq_true.mpr ⟨e, hmem, hown.same_self⟩)
    rw [hfinal, hnone, List.append_nil]
    exact ⟨hentries.concat hnew, htypedefs⟩

theorem owns_of_states {db' : Database} (h : db'.states = db.states) : db'.Owns e ↔ db.Owns e := by
  unfold Owns Knows state
  rw [h]

theorem Owns.create (h : db.Owns e) (name : String) (detail : EntryDetail Entry)
    (mods : List FunctionMod) : (db.create name detail mods).2.Owns e := by
  obtain ⟨⟨n, hn, hlt⟩, hstate⟩ := h
  refine ⟨⟨n, hn, ?_⟩, ?_⟩
  · simp only [Database.create, Array.size_push]
    omega
  · have hne : n ≠ db.states.size := Nat.ne_of_lt hlt
    simp only [state, hn, Option.bind_some, Database.create, Array.getElem?_push, if_neg hne]
      at hstate ⊢
    exact hstate

theorem owns_created (db : Database) (name : String) (detail : EntryDetail Entry) :
    (db.create name detail).2.Owns (db.create name detail).1 := by
  simp [Owns, Knows, state, Database.create]

theorem Owns.add (h : db.Owns e) (name : String) (detail : EntryDetail Entry) :
    (db.add name detail).2.Owns e :=
  (owns_of_states (listed_register _ _).2).mpr (h.create name detail [])

theorem owns_added (db : Database) (name : String) (detail : EntryDetail Entry) :
    (db.add name detail).2.Owns (db.add name detail).1 :=
  (owns_of_states (listed_register _ _).2).mpr (owns_created db name detail)

/-- A new entry is the only one that a database owns in addition. -/
theorem owns_create (db : Database) (name : String) (detail : EntryDetail Entry)
    (mods : List FunctionMod) (h : (db.create name detail mods).2.Owns e) :
    db.Owns e ∨ e = (db.create name detail mods).1 := by
  obtain ⟨⟨n, hn, hlt⟩, hstate⟩ := h
  simp only [Database.create, Array.size_push] at hlt
  simp only [state, hn, Option.bind_some, Database.create, Array.getElem?_push] at hstate
  by_cases hnew : n = db.states.size
  · rw [if_pos hnew] at hstate
    exact .inr hstate.symm
  · rw [if_neg hnew] at hstate
    refine .inl ⟨⟨n, hn, by omega⟩, ?_⟩
    simpa [state, hn] using hstate

namespace Consistent

theorem empty : ({} : Database).Consistent [] where
  closed e he := by
    obtain ⟨⟨n, -, hlt⟩, -⟩ := he
    cases hlt
  given_owns := List.forall_mem_nil _
  entries := .nil
  typedefs := .nil

theorem create (h : db.Consistent given) (name : String) {detail : EntryDetail Entry}
    (mods : List FunctionMod)
    (ht : ∀ source target, detail = .typedef source target → db.Owns target) :
    (db.create name detail mods).2.Consistent given where
  closed e he := by
    rcases owns_create db name detail mods he with hold | rfl
    · intro d hd
      exact (h.closed e hold d hd).create name detail mods
    · cases detail with
      | typedef source target =>
        have htarget := h.closed target (ht source target rfl)
        intro d hd
        rcases List.mem_cons.mp hd with rfl | hd
        · exact (htarget _ List.mem_cons_self).create ..
        · rcases List.mem_cons.mp hd with rfl | hd
          · exact he
          · exact (htarget d (List.mem_cons_of_mem _ hd)).create ..
      | _ => simpa [Database.create, Entry.final, Entry.chain] using he
  given_owns e he := (h.given_owns e he).create name detail mods
  entries := h.entries
  typedefs := h.typedefs

theorem owns (h : db.Consistent given) : ∀ d ∈ db.entries ++ db.typedefs, db.Owns d := by
  intro d hd
  rcases List.mem_append.mp hd with hd | hd
  · obtain ⟨g, hg, rfl⟩ := List.mem_map.mp ((h.entries.mem_iff d).mp hd)
    exact h.closed g (h.given_owns g hg) _ List.mem_cons_self
  · obtain ⟨g, hg, hd⟩ := List.mem_flatMap.mp ((h.typedefs.mem_iff d).mp hd)
    exact h.closed g (h.given_owns g hg) d (List.mem_cons_of_mem _ hd)

theorem register (h : db.Consistent given) (he : db.Owns e) :
    (db.register e).Consistent (given ++ [e]) := by
  have howns (d : Entry) : (db.register e).Owns d ↔ db.Owns d :=
    owns_of_states (listed_register db e).2
  have hchain : ∀ d ∈ e.chain, d ∈ db.typedefs → d.final ∈ db.entries ∧ d.chain ⊆ db.typedefs := by
    intro d _ hd
    obtain ⟨g, hg, hd⟩ := List.mem_flatMap.mp ((h.typedefs.mem_iff d).mp hd)
    obtain ⟨hsuffix, hfinal, -⟩ := Entry.of_mem_chain hd
    constructor
    · rw [h.entries.mem_iff, hfinal]
      exact List.mem_map_of_mem hg
    · intro c hc
      exact (h.typedefs.mem_iff c).mpr (List.mem_flatMap.mpr ⟨g, hg, hsuffix.subset hc⟩)
  obtain ⟨hentries, htypedefs⟩ :=
    collects_register h.entries h.typedefs h.owns (h.closed e he) hchain
  refine ⟨?_, ?_, ?_, ?_⟩
  · intro c hc d hd
    rw [howns] at hc ⊢
    exact h.closed c hc d hd
  · intro g hg
    rw [howns]
    rcases List.mem_append.mp hg with hg | hg
    · exact h.given_owns g hg
    · rwa [List.mem_singleton.mp hg]
  · rw [List.map_append]
    exact hentries
  · rw [List.flatMap_append, List.flatMap_singleton]
    exact htypedefs

theorem add (h : db.Consistent given) (name : String) {detail : EntryDetail Entry}
    (ht : ∀ source target, detail = .typedef source target → db.Owns target) :
    (db.add name detail).2.Consistent (given ++ [(db.add name detail).1]) := by
  exact (h.create name [] ht).register (owns_created db name detail)

end Consistent

theorem Registered.consistent (h : db.Registered given) : db.Consistent given := by
  induction h with
  | new =>
    have hvoid : (Database.add {} "void" .void).2.Consistent [_] :=
      Consistent.empty.add "void" nofun
    exact hvoid.add "..." nofun
  | make _ name mods ht ih => exact ih.create name mods ht
  | add _ name ht ih => exact ih.add name ht
  | share _ he ih => exact ih.register he

end Database

namespace IndexedDatabase
variable {ix : IndexedDatabase} {db own : Database} {e : Entry} {given : List Entry}

/-- The database with an index after some entries were registered. -/
def ofGiven (given : List Entry) : IndexedDatabase := given.foldl register {}

/-- The indices are those of the entries. -/
structure Mirrors (ix : IndexedDatabase) (db : Database) : Prop where
  lists : ix.catalog.Lists (·.name) db.entries
  names : ix.catalog.NamesOf (·.name) db.entries
  next : ix.catalog.next.toNat = db.entries.length + 1
  typedefs : ix.typedefs = db.typedefs
  aliases : ix.aliases = db.entries.reverse.filterMap fun e => e.flagsAlias?.map fun a => (a, e)

theorem length_entries_le_register (db : Database) (e : Entry) :
    db.entries.length ≤ (db.register e).entries.length := by
  fun_induction Database.register db e with
  | case1 => exact le_rfl
  | case2 _ _ _ _ _ _ _ ih => exact ih
  | case3 => exact le_rfl
  | case4 => simp

namespace Mirrors

theorem empty : (ofGiven []).Mirrors {} where
  lists := Catalog.Lists.empty 1 _
  names := Catalog.NamesOf.empty 1 _
  next := rfl
  typedefs := rfl
  aliases := rfl

/-- An entry is among all others just when it is among those of its name. -/
theorem holds (h : ix.Mirrors db) (hdb : ∀ d ∈ db.entries, own.Owns d) (he : own.Owns e) :
    ix.catalog.holds e.name (·.same e) = db.entries.any (·.same e) := by
  rw [h.lists.holds, Bool.eq_iff_iff, List.any_eq_true, List.any_eq_true]
  simp only [Bool.and_eq_true, beq_iff_eq]
  constructor
  · rintro ⟨d, hd, -, hsame⟩
    exact ⟨d, hd, hsame⟩
  · rintro ⟨d, hd, hsame⟩
    have heq : d = e := Database.Owns.eq_of_same (hdb d hd) he hsame
    exact ⟨d, hd, congrArg (·.name) heq, hsame⟩

theorem register (h : ix.Mirrors db) (hdb : ∀ d ∈ db.entries, own.Owns d)
    (he : own.Owns e.final) (hlength : (db.register e).entries.length + 1 < UInt32.size) :
    (ix.register e).Mirrors (db.register e) := by
  fun_induction Database.register db e generalizing ix with
  | case1 db id? name source target e =>
    rename_i hany
    rwa [IndexedDatabase.register.eq_1, h.typedefs, if_pos hany]
  | case2 db id? name source target e hany =>
    rename_i ih
    have hnext : ix.register e =
        ({ ix with typedefs := ix.typedefs ++ [e] } : IndexedDatabase).register target := by
      rw [IndexedDatabase.register.eq_1, h.typedefs, if_neg hany]
    rw [hnext]
    apply ih _ hdb he hlength
    exact { h with typedefs := congrArg (· ++ [e]) h.typedefs }
  | case3 db e hne hany =>
    have hown : own.Owns e := by rwa [Entry.final.eq_2 e hne] at he
    rwa [IndexedDatabase.register.eq_2 ix e hne, h.holds hdb hown, if_pos hany]
  | case4 db e hne hany =>
    have hown : own.Owns e := by rwa [Entry.final.eq_2 e hne] at he
    rw [List.length_append, List.length_singleton] at hlength
    have hnext := h.next
    rw [IndexedDatabase.register.eq_2 ix e hne, h.holds hdb hown, if_neg hany]
    refine ⟨h.lists.add (by omega) e, h.names.add e, ?_, h.typedefs, ?_⟩
    · rw [List.length_append, List.length_singleton, ← hnext]
      exact ix.catalog.toNat_next_add _ e (by omega)
    · rw [List.reverse_append, List.filterMap_append, h.aliases]
      rfl

theorem give (h : (ofGiven given).Mirrors db) (hc : db.Consistent given) (he : db.Owns e)
    (hlength : (db.register e).entries.length + 1 < UInt32.size) :
    (ofGiven (given ++ [e])).Mirrors (db.register e) := by
  have hgive : ofGiven (given ++ [e]) = (ofGiven given).register e :=
    List.foldl_concat IndexedDatabase.register {} e given
  rw [hgive]
  apply h.register _ (hc.closed e he _ List.mem_cons_self) hlength
  intro d hd
  exact hc.owns d (List.mem_append_left _ hd)

theorem add (h : (ofGiven given).Mirrors db) (hc : db.Consistent given) (name : String)
    {detail : EntryDetail Entry}
    (ht : ∀ source target, detail = .typedef source target → db.Owns target)
    (hlength : (db.add name detail).2.entries.length + 1 < UInt32.size) :
    (ofGiven (given ++ [(db.add name detail).1])).Mirrors (db.add name detail).2 := by
  have hcreate : (ofGiven given).Mirrors (db.create name detail).2 := { h with }
  exact hcreate.give (hc.create name [] ht) (Database.owns_created db name detail) hlength

end Mirrors

theorem mirrors_of_registered (h : db.Registered given)
    (hlength : db.entries.length + 1 < UInt32.size) : (ofGiven given).Mirrors db := by
  induction h with
  | new =>
    have hvoid : (ofGiven [_]).Mirrors (Database.add {} "void" .void).2 :=
      Mirrors.empty.add .empty "void" nofun (by decide)
    exact hvoid.add (Database.Consistent.empty.add "void" nofun) "..." nofun (by decide)
  | make _ name mods ht ih => exact { ih hlength with }
  | @add db given h name detail ht ih =>
    have hle : db.entries.length ≤ (db.add name detail).2.entries.length :=
      length_entries_le_register (db.create name detail).2 _
    exact (ih (by omega)).add h.consistent name ht hlength
  | @share db given h e he ih =>
    have hle := length_entries_le_register db e
    exact (ih (by omega)).give h.consistent he hlength

/-! ### What is read -/

/-- Both answer alike. -/
structure Agrees (ix : IndexedDatabase) (db : Database) : Prop where
  entries : ix.entries = db.entries
  typedefs : ix.typedefs = db.typedefs
  named : ∀ name, ix.named name = db.named name
  candidates : ∀ name, ix.candidates name = db.candidates name
  findFlags? : ∀ name, ix.findFlags? name = db.findFlags? name

namespace Mirrors

theorem candidates (h : ix.Mirrors db) (name : String) :
    ix.candidates name = db.candidates name := by
  have hsorted : (ix.candidates name).Pairwise (· ≤ ·) := List.pairwise_mergeSort' _ _
  have hnodup : (ix.candidates name).Nodup :=
    (List.mergeSort_perm _ _).nodup_iff.mpr (h.names.nodup.filter _)
  have hstrict : (ix.candidates name).Pairwise (· < ·) :=
    (hsorted.and hnodup).imp fun hlt => lt_of_le_of_ne hlt.1 hlt.2
  apply hstrict.eq_of_mem_iff (Database.pairwise_candidates db name)
  intro n
  rw [IndexedDatabase.candidates, List.mem_mergeSort, List.mem_filter, h.names.mem_iff,
    Database.isSuffixOf_scope_iff, Database.mem_candidates_iff]

theorem lookup_aliases (l : List Entry) (name : String) :
    (l.filterMap fun e => e.flagsAlias?.map fun a => (a, e)).lookup name =
      l.find? (·.flagsAlias? == some name) := by
  induction l with
  | nil => rfl
  | cons e l ih =>
    cases halias : e.flagsAlias? with
    | none => simp [halias, ih]
    | some a =>
      by_cases ha : name = a
      · simp [halias, Catalog.lookup_cons, ha]
      · have hne : a ≠ name := fun heq => ha heq.symm
        simp [halias, ih, Catalog.lookup_cons, ha, hne]

theorem agrees (h : ix.Mirrors db) : ix.Agrees db where
  entries := h.lists.values
  typedefs := h.typedefs
  named := h.lists.named
  candidates := h.candidates
  findFlags? name := by
    have hnamed : ix.named name = db.named name := h.lists.named name
    rw [IndexedDatabase.findFlags?, hnamed, h.aliases, lookup_aliases]
    rfl

end Mirrors
end IndexedDatabase

/-- Of all that was registered the database holds each entry that is no typedef once, those that
typedefs stand for included, and each typedef once, in the order in which they first came. The
entries of a name, and the names that end in one, are read off its entries. As long as there are
numbers, the database with an index holds and finds the same. -/
theorem Database.Registered.each_once {db : Database} {given : List Entry}
    (h : db.Registered given) :
    Collects (given.map Entry.final) db.entries ∧ (∀ e ∈ db.entries, e.kind ≠ .typedef) ∧
      Collects (given.flatMap Entry.chain) db.typedefs ∧ (∀ e ∈ db.typedefs, e.kind = .typedef) ∧
      (∀ d ∈ db.entries ++ db.typedefs, ∀ e ∈ db.entries ++ db.typedefs,
        d.same e = true ↔ d = e) ∧
      (∀ name, db.named name = db.entries.filter (·.name == name)) ∧
      (∀ name, (db.candidates name).Pairwise (· < ·) ∧ ∀ n, n ∈ db.candidates name ↔
        (∃ e ∈ db.entries, e.name = n) ∧ ∃ outer, n = outer ++ "::" ++ name) ∧
      (db.entries.length + 1 < UInt32.size → (IndexedDatabase.ofGiven given).Agrees db) := by
  have hc := h.consistent
  refine ⟨hc.entries, ?_, hc.typedefs, ?_, ?_, fun _ => rfl, ?_, ?_⟩
  · intro e he
    obtain ⟨g, -, rfl⟩ := List.mem_map.mp ((hc.entries.mem_iff e).mp he)
    exact g.final_kind
  · intro e he
    obtain ⟨g, -, he⟩ := List.mem_flatMap.mp ((hc.typedefs.mem_iff e).mp he)
    exact (Entry.of_mem_chain he).2.2
  · intro d hd e he
    constructor
    · exact Owns.eq_of_same (hc.owns d hd) (hc.owns e he)
    · rintro rfl
      exact (hc.owns d hd).same_self
  · intro name
    exact ⟨pairwise_candidates db name, fun n => mem_candidates_iff⟩
  · intro hlength
    exact (IndexedDatabase.mirrors_of_registered h hlength).agrees

/-- Two entries of one name, the first of them registered again, and a typedef of a typedef of an
entry that is registered itself only afterwards. -/
theorem Database.Registered.each_once_of_alias :
    let a := initial.add "N::A" (.complex .value {})
    let b := (a.2.register a.1).add "N::A" (.complex .object {})
    let x := b.2.create "X" (.complex .value {})
    let t := x.2.add "T" (.typedef x.1.name x.1)
    let u := t.2.add "U" (.typedef t.1.name t.1)
    let db := u.2.register x.1
    let given := initial.entries ++ [a.1] ++ [a.1] ++ [b.1] ++ [t.1] ++ [u.1] ++ [x.1]
    db.Registered given ∧ Collects (given.map Entry.final) db.entries ∧
      db.entries.map (·.name) = ["void", "...", "N::A", "N::A", "X"] ∧
      db.typedefs.map (·.name) = ["T", "U"] ∧
      (IndexedDatabase.ofGiven given).candidates "A" = ["N::A"] ∧
      ((IndexedDatabase.ofGiven given).named "N::A").map (·.kind) = [.value, .object] := by
  intro a b x t u db given
  have ha : a.2.Registered (initial.entries ++ [a.1]) := .add .new "N::A" nofun
  have hb : b.2.Registered (initial.entries ++ [a.1] ++ [a.1] ++ [b.1]) :=
    .add (ha.share (owns_added _ _ _)) "N::A" nofun
  have hx : x.2.Registered (initial.entries ++ [a.1] ++ [a.1] ++ [b.1]) := .make hb "X" [] nofun
  have howns : x.2.Owns x.1 := owns_created b.2 "X" _
  have ht : t.2.Registered (initial.entries ++ [a.1] ++ [a.1] ++ [b.1] ++ [t.1]) := by
    apply Registered.add hx "T"
    rintro _ _ ⟨⟩
    exact howns
  have hu : u.2.Registered (initial.entries ++ [a.1] ++ [a.1] ++ [b.1] ++ [t.1] ++ [u.1]) := by
    apply Registered.add ht "U"
    rintro _ _ ⟨⟩
    exact owns_added _ _ _
  have hdb : db.Registered given := hu.share ((howns.add _ _).add _ _)
  obtain ⟨hentries, -, -, -, -, -, -, hindexed⟩ := each_once hdb
  have hagrees := hindexed (by decide)
  refine ⟨hdb, hentries, by decide +kernel, by decide +kernel, ?_, ?_⟩
  · rw [hagrees.candidates]
    decide +kernel
  · rw [hagrees.named]
    decide +kernel

end BindingModel
