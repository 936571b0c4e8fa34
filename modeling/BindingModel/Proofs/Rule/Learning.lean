import BindingModel.Proofs.Rule.SameRules

/-! What an assembly learns of the rules without switching off an entry that was there before. -/
namespace BindingModel.Database

/-- The entry was created by the database. -/
def Knows (db : Database) (e : Entry) : Prop := ∃ n, e.id? = some n ∧ n < db.states.size

/-- The entry is the one that the database created under its number. -/
def Owns (db : Database) (e : Entry) : Prop := db.Knows e ∧ (db.state e).entry = e

/-- Every registered entry is the one that was created under its number. -/
def Numbered (db : Database) : Prop := ∀ e ∈ db.entries, db.Knows e ∧ (db.state e).entry = e

/-- Entries may have been added. What was said of others, and the general rules, stay. -/
structure Extends (db db' : Database) : Prop where
  policies : db'.policies = db.policies
  rejections : db'.rejections = db.rejections
  entries : db.entries ⊆ db'.entries
  knows : ∀ e, db.Knows e → db'.Knows e
  numbered : db.Numbered → db'.Numbered

/-- Moreover no entry that was there before was switched off or on. -/
structure Learns (db db' : Database) : Prop extends db.Extends db' where
  codegen : ∀ e, db.Knows e → (db'.state e).codegen = (db.state e).codegen

variable {db db' db'' : Database}

theorem id?_eq_of_same {d e : Entry} (h : d.same e = true) : d.id? = e.id? := by
  unfold Entry.same at h
  simp only [Bool.and_eq_true, beq_iff_eq] at h
  exact h.2

theorem Owns.same_self {e : Entry} (h : db.Owns e) : e.same e = true := by
  obtain ⟨⟨n, hn, -⟩, -⟩ := h
  simp [Entry.same, hn]

theorem Owns.eq_of_same {d e : Entry} (hd : db.Owns d) (he : db.Owns e)
    (hsame : d.same e = true) : d = e := by
  have hid := id?_eq_of_same hsame
  have hstate : (db.state d).entry = (db.state e).entry := by
    obtain ⟨⟨n, hn, hlt⟩, -⟩ := hd
    unfold state
    rw [← hid, hn]
    simp [hlt]
  rw [← hd.2, hstate, he.2]

theorem Numbered.eq_of_same (h : db.Numbered) {d e : Entry} (hd : d ∈ db.entries)
    (he : e ∈ db.entries) (hsame : d.same e = true) : d = e :=
  Owns.eq_of_same (h d hd) (h e he) hsame

namespace Extends

theorem refl (db : Database) : db.Extends db :=
  ⟨rfl, rfl, List.Subset.refl _, fun _ => id, id⟩

theorem trans (h : db.Extends db') (k : db'.Extends db'') : db.Extends db'' :=
  ⟨k.policies.trans h.policies, k.rejections.trans h.rejections,
    List.Subset.trans h.entries k.entries, fun e he => k.knows e (h.knows e he),
    fun hdb => k.numbered (h.numbered hdb)⟩

theorem modify (db : Database) (e : Entry) {f : EntryState → EntryState}
    (hf : ∀ s, (f s).entry = s.entry) : db.Extends (db.modify e f) := by
  obtain ⟨hlisted, hsize⟩ := listed_modify db e f
  have hentries := (modify_frame db e f).1
  have hknows : ∀ d, db.Knows d → (db.modify e f).Knows d := by
    rintro d ⟨n, hn, hlt⟩
    exact ⟨n, hn, hsize ▸ hlt⟩
  refine ⟨congrArg (·.policies) hlisted, congrArg (·.rejections) hlisted, ?_, hknows,
    fun hdb d hd => ?_⟩
  · rw [hentries]
    exact List.Subset.refl _
  · rw [hentries] at hd
    obtain ⟨hknown, hstate⟩ := hdb d hd
    refine ⟨hknows d hknown, ?_⟩
    rw [state_modify]
    split
    · rw [hf, hstate]
    · exact hstate

theorem setCodegen (db : Database) (e : Entry) (bits : Nat) : db.Extends (db.setCodegen e bits) :=
  modify db e fun _ => rfl

end Extends

theorem state_add (db : Database) (name : String) (detail : EntryDetail Entry) (d : Entry) :
    (db.add name detail).2.state d =
      if d.id? = some db.states.size then { entry := (db.add name detail).1 }
      else db.state d := by
  have hstates := (listed_register (db.create name detail).2 (db.create name detail).1).2
  have hstate : (db.add name detail).2.state d = (db.create name detail).2.state d := by
    unfold state add
    dsimp only
    rw [hstates]
  rw [hstate, state_create]
  rfl

theorem frame_register (db : Database) (e : Entry) :
    (db.register e).policies = db.policies ∧ (db.register e).rejections = db.rejections := by
  fun_induction register db e with
  | case1 => exact ⟨rfl, rfl⟩
  | case2 _ _ _ _ _ _ _ ih => exact ih
  | case3 => exact ⟨rfl, rfl⟩
  | case4 => exact ⟨rfl, rfl⟩

theorem Extends.add (db : Database) (name : String) {detail : EntryDetail Entry}
    (hkind : detail.kind ≠ .typedef) : db.Extends (db.add name detail).2 := by
  have hstates := (listed_register (db.create name detail).2 (db.create name detail).1).2
  have hsize : (db.add name detail).2.states.size = db.states.size + 1 := by
    unfold Database.add
    dsimp only
    rw [hstates]
    simp [create]
  obtain ⟨hpolicies, hrejections⟩ :=
    frame_register (db.create name detail).2 (db.create name detail).1
  obtain ⟨-, -, hentries⟩ := add_frame db name hkind
  have hknows : ∀ d, db.Knows d → (db.add name detail).2.Knows d := by
    rintro d ⟨n, hn, hlt⟩
    exact ⟨n, hn, by omega⟩
  have hold : ∀ d, db.Knows d → (db.state d).entry = d →
      ((db.add name detail).2.state d).entry = d := by
    rintro d ⟨n, hn, hlt⟩ hstate
    rw [state_add, if_neg, hstate]
    rw [hn, Option.some.injEq]
    exact Nat.ne_of_lt hlt
  refine ⟨hpolicies, hrejections, ?_, hknows, fun hdb d hd => ?_⟩
  · rcases hentries with hsame | hnext
    · rw [hsame]
      exact List.Subset.refl _
    · rw [hnext]
      exact List.subset_append_left _ _
  · have hcase : d ∈ db.entries ∨ d = (db.add name detail).1 := by
      rcases hentries with hsame | hnext
      · exact .inl (hsame ▸ hd)
      · simpa [hnext] using hd
    rcases hcase with hd | rfl
    · obtain ⟨hknown, hstate⟩ := hdb d hd
      exact ⟨hknows d hknown, hold d hknown hstate⟩
    · have hid : (db.add name detail).1.id? = some db.states.size := rfl
      refine ⟨⟨db.states.size, hid, by omega⟩, ?_⟩
      rw [state_add, if_pos hid]

theorem Numbered.add (h : db.Numbered) (name : String) (detail : EntryDetail Entry)
    (hkind : detail.kind ≠ .typedef) : (db.add name detail).2.Numbered :=
  (Extends.add db name hkind).numbered h

theorem numbered_initial : initial.Numbered := by
  have hempty : ({} : Database).Numbered := fun d hd => by cases hd
  exact (hempty.add "void" .void (by decide)).add "..." .varargs (by decide)

namespace Learns

theorem refl (db : Database) : db.Learns db := ⟨.refl db, fun _ _ => rfl⟩

theorem trans (h : db.Learns db') (k : db'.Learns db'') : db.Learns db'' := by
  refine ⟨h.toExtends.trans k.toExtends, fun e he => ?_⟩
  rw [k.codegen e (h.knows e he), h.codegen e he]

theorem foldl {α : Type} {f : Database → α → Database}
    (hf : ∀ (db : Database) a, db.Learns (f db a)) (l : List α) (db : Database) :
    db.Learns (l.foldl f db) :=
  List.foldlRecOn l f (refl db) fun u hu a _ => hu.trans (hf u a)

theorem modify (db : Database) (e : Entry) {f : EntryState → EntryState}
    (hf : ∀ s, (f s).entry = s.entry ∧ (f s).codegen = s.codegen) : db.Learns (db.modify e f) := by
  refine ⟨.modify db e fun s => (hf s).1, fun d _ => ?_⟩
  rw [state_modify]
  split
  · exact (hf _).2
  · rfl

theorem setInclude (db : Database) (e : Entry) (path : String) :
    db.Learns (db.setInclude e path) :=
  modify db e fun _ => ⟨rfl, rfl⟩

theorem setNullValue (db : Database) (e : Entry) (name : String) :
    db.Learns (db.setNullValue e name) := by
  unfold Database.setNullValue
  split
  · exact modify db e fun _ => ⟨rfl, rfl⟩
  · exact .refl db

theorem setReferenced (db : Database) (e target : Entry) :
    db.Learns (db.setReferenced e target) := by
  unfold Database.setReferenced
  split
  · exact modify db e fun _ => ⟨rfl, rfl⟩
  · exact .refl db

theorem setBaseContainer (db : Database) (e container : Entry) :
    db.Learns (db.setBaseContainer e container) := by
  unfold Database.setBaseContainer
  split
  · exact modify db e fun _ => ⟨rfl, rfl⟩
  · exact .refl db

theorem addMod (db : Database) (e : Entry) (m : FunctionMod) : db.Learns (db.addMod e m) := by
  unfold Database.addMod
  split
  · exact modify db e fun _ => ⟨rfl, rfl⟩
  · exact .refl db

theorem add (db : Database) (name : String) {detail : EntryDetail Entry}
    (hkind : detail.kind ≠ .typedef) : db.Learns (db.add name detail).2 := by
  refine ⟨.add db name hkind, ?_⟩
  rintro d ⟨n, hn, hlt⟩
  rw [state_add, if_neg]
  rw [hn, Option.some.injEq]
  exact Nat.ne_of_lt hlt

/-- An entry that is added may be switched off at once. -/
theorem addDisabled (db : Database) (name : String) {detail : EntryDetail Entry}
    (hkind : detail.kind ≠ .typedef) (bits : Nat) :
    db.Learns ((db.add name detail).2.setCodegen (db.add name detail).1 bits) := by
  have hadd := add db name hkind
  refine ⟨hadd.toExtends.trans (.setCodegen _ _ bits), fun d hd => ?_⟩
  have hcodegen := hadd.codegen d hd
  obtain ⟨n, hn, hlt⟩ := hd
  unfold Database.setCodegen
  rw [state_modify, if_neg, hcodegen]
  rintro ⟨hsame, -⟩
  have hid : some db.states.size = d.id? := id?_eq_of_same hsame
  rw [hn, Option.some.injEq] at hid
  omega

end Learns
end BindingModel.Database
