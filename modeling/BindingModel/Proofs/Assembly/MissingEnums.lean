import BindingModel.Proofs.Assembly.Shelves
import BindingModel.Proofs.Assembly.Stages

/-! Enums that are switched off as missing: exactly those that are neither global nor in the first
registered class with the name that qualifies their entry. -/
namespace BindingModel
open Api Header

namespace Database

theorem Numbered.codegen_setCodegen_self {db : Database} (h : db.Numbered) {e : Entry}
    (he : e ∈ db.entries) (bits : Nat) : ((db.setCodegen e bits).state e).codegen = bits := by
  obtain ⟨⟨n, hn, hlt⟩, -⟩ := h e he
  have hself : e.same e = true := by simp [Entry.same, hn]
  unfold setCodegen
  rw [state_modify, if_pos ⟨hself, by simpa [hn] using hlt⟩]

theorem Numbered.codegen_setCodegen_of_ne {db : Database} (h : db.Numbered) {d e : Entry}
    (hd : d ∈ db.entries) (he : e ∈ db.entries) (hne : d ≠ e) (bits : Nat) :
    ((db.setCodegen d bits).state e).codegen = (db.state e).codegen := by
  unfold setCodegen
  rw [state_modify, if_neg fun hsame => hne (h.eq_of_same hd he hsame.1)]

theorem rejection?_congr {db db' : Database} (h : db'.rejections = db.rejections) :
    db'.rejection? = db.rejection? := by
  unfold rejection?
  rw [h]

end Database

namespace Assembly

/-! ### An entry that stays as it is -/

/-- The entry is registered and generated by these bits, under the general rules of a database. -/
structure Generated (db : Database) (e : Entry) (bits : Nat) (s : State) : Prop where
  numbered : s.db.Numbered
  registered : e ∈ s.db.entries
  codegen : (s.db.state e).codegen = bits
  rejections : s.db.rejections = db.rejections

namespace Generated
variable {db : Database} {e : Entry} {bits : Nat} {s t : State}

theorem change (h : Generated db e bits s) (ht : s.db.Extends t.db) {bits' : Nat}
    (hcodegen : (t.db.state e).codegen = bits') : Generated db e bits' t :=
  ⟨ht.numbered h.numbered, ht.entries h.registered, hcodegen,
    ht.rejections.trans h.rejections⟩

theorem learns (h : Generated db e bits s) (ht : s.db.Learns t.db) : Generated db e bits t :=
  h.change ht.toExtends ((ht.codegen e (h.numbered e h.registered).1).trans h.codegen)

/-- Another entry may be switched off. -/
theorem setCodegen (h : Generated db e bits s) {d : Entry} (hd : d ∈ s.db.entries)
    (hne : d ≠ e) (hdb : t.db = s.db.setCodegen d noCode) : Generated db e bits t := by
  refine h.change (hdb ▸ .setCodegen s.db d noCode) ?_
  rw [hdb, h.numbered.codegen_setCodegen_of_ne hd h.registered hne, h.codegen]

end Generated

/-- Nothing that the header declares under the name of the entry is private or rejected. -/
def Admitted (D : List (String × EnumDecl)) (db : Database) (e : Entry) : Prop :=
  ∀ scope d, (scope, d) ∈ D → GoesBy d scope e →
    d.access ≠ .priv ∧ db.rejection? .enumeration scope d.name = none

theorem Step.generated {D : List (String × EnumDecl)} {k : Stage} {s t : State} {db : Database}
    {e : Entry} {bits : Nat} (hD : Admitted D db e) (h : Step D s k t)
    (hs : Generated db e bits s) : Generated db e bits t := by
  cases h with
  | aside hdb => exact hs.learns (hdb ▸ .refl s.db)
  | learn hdb => exact hs.learns hdb
  | @disable scope d e' hd he' hname hwhy =>
    refine hs.setCodegen he' (fun heq => ?_) rfl
    obtain ⟨hpublic, hkept⟩ := hD scope d hd (heq ▸ hname)
    rw [Database.rejection?_congr hs.rejections, hkept] at hwhy
    simp [hpublic] at hwhy
  | create => exact hs.learns (.refl s.db)
  | addEnum => exact hs.learns (.refl s.db)
  | addFreeEnum => exact hs.learns (.refl s.db)
  | edit => exact hs.learns (.refl s.db)
  | takeMarks => exact hs.learns (.refl s.db)
  | addField => exact hs.learns (.refl s.db)
  | addMember => exact hs.learns (.refl s.db)
  | addRule => exact hs.learns (.refl s.db)
  | addLate => exact hs.learns (.refl s.db)

/-! ### Looking for the enums -/

/-- The same enums are found in the same classes. -/
structure SameEnums (s t : State) : Prop where
  globalEnums : t.globalEnums = s.globalEnums
  enums : ∀ i, (t.store.get i).enums = (s.store.get i).enums
  head : ∀ i, (t.store.get i).head = (s.store.get i).head

namespace SameEnums
variable {s t u : State}

theorem of_eq (henums : t.globalEnums = s.globalEnums) (hstore : t.store = s.store) :
    SameEnums s t := by
  refine ⟨henums, fun i => ?_, fun i => ?_⟩ <;> rw [hstore]

theorem refl (s : State) : SameEnums s s := of_eq rfl rfl

theorem trans (h : SameEnums s t) (k : SameEnums t u) : SameEnums s u :=
  ⟨k.globalEnums.trans h.globalEnums, fun i => (k.enums i).trans (h.enums i),
    fun i => (k.head i).trans (h.head i)⟩

theorem isDeclaredEnum (h : SameEnums s t) (hregistry : t.registry = s.registry) :
    isDeclaredEnum t = isDeclaredEnum s := by
  have hname : ∀ i, (t.store.get i).qualifiedName = (s.store.get i).qualifiedName :=
    fun i => congrArg Entry.name (BoundClass.entry_eq_of_head (h.head i))
  funext e
  unfold Assembly.isDeclaredEnum Registry.findByName? BoundClass.findEnum?
  simp only [hregistry, h.globalEnums, h.enums, hname]

end SameEnums

theorem Touches.sameEnums {s : State} {k : Stage} {c d : BoundClass} (hk : k ≠ .declaring)
    (h : Touches s k c d) : d.enums = c.enums ∧ d.head = c.head := by
  cases h with
  | create => exact absurd rfl hk
  | addEnum => exact absurd rfl hk
  | edit h => exact ⟨h.enums, BoundClass.head_eq_of_core h.core⟩
  | _ => exact ⟨rfl, rfl⟩

/-- After the first pass no enum comes or goes. -/
theorem Step.sameEnums {D : List (String × EnumDecl)} {k : Stage} {s t : State}
    (hk : k ≠ .declaring) (h : Step D s k t) : SameEnums s t := by
  refine ⟨?_, fun i => ((h.touches i).sameEnums hk).1, fun i => ((h.touches i).sameEnums hk).2⟩
  cases h with
  | aside _ _ henums => exact henums
  | addFreeEnum => exact absurd rfl hk
  | _ => rfl

theorem Advances.sameEnums {D : List (String × EnumDecl)} {k : Stage} {s t : State}
    (hk : k ≠ .declaring) (h : Advances D k s t) : SameEnums s t :=
  h.keeps (I := SameEnums s) (fun hstep hs => hs.trans (hstep.sameEnums hk)) (.refl s)

/-! ### The entries are checked -/

theorem checkEntry_frame (s : State) (e : Entry) :
    SameEnums s (checkEntry s e) ∧ (checkEntry s e).registry = s.registry := by
  have hsame : ∀ {t : State}, SameSurroundings 0 s t →
      SameEnums s t ∧ t.registry = s.registry := fun h =>
    ⟨⟨h.globalEnums.symm, fun i => (h.enums i).symm, fun i => (h.head i).symm⟩, h.registry.symm⟩
  have hwarned : ∀ (b : Bool) w, SameEnums s (s.warnIf b w) ∧
      (s.warnIf b w).registry = s.registry := by
    intro b w
    unfold State.warnIf
    split
    · exact hsame (warnAll_surroundings 0 s [w])
    · exact ⟨.refl s, rfl⟩
  unfold checkEntry
  split
  · exact hwarned _ _
  · exact hwarned _ _
  · split
    · exact hsame (warnAll_surroundings 0 s _)
    · exact ⟨.refl s, rfl⟩
  · split
    · exact ⟨.of_eq rfl rfl, rfl⟩
    · exact ⟨.refl s, rfl⟩
  · exact ⟨.refl s, rfl⟩

section
variable {db : Database} {e : Entry} {bits : Nat} {s : State}

theorem generatesTargetLang_eq (h : Generated db e bits s) :
    s.db.generatesTargetLang e = bits.testBit 0 := by
  unfold Database.generatesTargetLang
  rw [h.codegen]

/-- Checking an entry does not switch off another one, nor a declared enum. -/
theorem checkEntry_keeps (hs : Generated db e bits s) {d : Entry} (hd : d ∈ s.db.entries)
    (h : d ≠ e ∨ isDeclaredEnum s e = true ∨ bits = noCode) :
    Generated db e bits (checkEntry s d) := by
  by_cases hkind : d.kind = .enumeration
  · rw [checkEntry_of_enum hkind]
    split
    · next hmissing =>
      rw [Bool.and_eq_true, Bool.not_eq_true'] at hmissing
      refine hs.setCodegen hd (fun heq => ?_) rfl
      subst heq
      rcases h with hne | hdeclared | rfl
      · exact hne rfl
      · rw [hmissing.2] at hdeclared
        cases hdeclared
      · rw [generatesTargetLang_eq hs] at hmissing
        exact absurd hmissing.1 (by decide)
    · exact hs
  · refine hs.learns ?_
    rw [db_checkEntry_of_ne hkind]
    exact .refl s.db

theorem checkEntry_disables (hs : Generated db e bits s) (hkind : e.kind = .enumeration)
    (hbits : bits.testBit 0 = true) (hmissing : isDeclaredEnum s e = false) :
    Generated db e noCode (checkEntry s e) := by
  rw [checkEntry_of_enum hkind, generatesTargetLang_eq hs, if_pos (by simp [hbits, hmissing])]
  exact hs.change (.setCodegen s.db e noCode)
    (hs.numbered.codegen_setCodegen_self hs.registered noCode)

theorem isDeclaredEnum_foldl_checkEntry (l : List Entry) (s : State) :
    isDeclaredEnum (l.foldl checkEntry s) = isDeclaredEnum s := by
  refine List.foldlRecOn (motive := fun t => isDeclaredEnum t = isDeclaredEnum s) l checkEntry rfl
    fun t ht d _ => ?_
  obtain ⟨hsame, hregistry⟩ := checkEntry_frame t d
  rw [hsame.isDeclaredEnum hregistry, ht]

theorem foldl_checkEntry_keeps {l : List Entry} (hl : l ⊆ s.db.entries)
    (hs : Generated db e bits s) (h : e ∉ l ∨ isDeclaredEnum s e = true ∨ bits = noCode) :
    Generated db e bits (l.foldl checkEntry s) := by
  induction l generalizing s with
  | nil => exact hs
  | cons d l ih =>
    obtain ⟨hd, hl⟩ := List.cons_subset.mp hl
    have hhead : Generated db e bits (checkEntry s d) := by
      refine checkEntry_keeps hs hd (h.imp_left fun hnone heq => ?_)
      exact hnone (heq ▸ List.mem_cons_self)
    refine ih (fun x hx => (extends_checkEntry s d).entries (hl hx)) hhead ?_
    obtain ⟨hsame, hregistry⟩ := checkEntry_frame s d
    rw [hsame.isDeclaredEnum hregistry]
    exact h.imp_left fun hnone hmem => hnone (List.mem_cons_of_mem d hmem)

/-- Checking all entries leaves an enum as it is if it is declared, and switches it off if not. -/
theorem checkEntries_generated (hs : Generated db e bits s) (hkind : e.kind = .enumeration)
    (hbits : bits.testBit 0 = true) :
    Generated db e (if isDeclaredEnum s e then bits else noCode) (checkEntries s) := by
  split
  · next hdeclared =>
    exact foldl_checkEntry_keeps (List.Subset.refl _) hs (.inr (.inl hdeclared))
  · next hmissing =>
    have hmissing : isDeclaredEnum s e = false := by simpa using hmissing
    obtain ⟨before, after, hsplit, hfirst⟩ := List.eq_append_cons_of_mem hs.registered
    have hentries : before ⊆ s.db.entries ∧ after ⊆ s.db.entries := by
      rw [hsplit]
      exact ⟨List.subset_append_left _ _,
        fun x hx => List.mem_append_right _ (List.mem_cons_of_mem e hx)⟩
    have hbefore : Generated db e bits (before.foldl checkEntry s) :=
      foldl_checkEntry_keeps hentries.1 hs (.inl hfirst)
    have hdisabled := checkEntry_disables hbefore hkind hbits
      ((congrFun (isDeclaredEnum_foldl_checkEntry before s) e).trans hmissing)
    unfold checkEntries
    rw [hsplit, List.foldl_append, List.foldl_cons]
    refine foldl_checkEntry_keeps (fun x hx => ?_) hdisabled (.inr (.inr rfl))
    have hextends := (extends_foldl_checkEntry before s).trans (extends_checkEntry _ e)
    exact hextends.entries (hentries.2 hx)

end

/-! ### Finished models -/

theorem Course.generated {env : Env} {db : Database} {s₁ s₂ s₃ s₄ : State}
    (h : Course env { db } s₁ s₂ s₃ s₄) {e : Entry} (hD : Admitted env.header.enumsIn db e)
    (hkind : e.kind = .enumeration) {bits : Nat} (hbits : bits.testBit 0 = true)
    (h₀ : Generated db e bits { db }) :
    Generated db e (if isDeclaredEnum s₃ e then bits else noCode) s₄ := by
  have hdeclared : Generated db e bits s₁ :=
    h.opens.declaring.keeps (fun hstep hs => hstep.generated hD hs)
      (fun _ _ hs => hs.learns (.refl _)) h₀
  have hfilled : Generated db e bits s₂ :=
    h.filling.keeps (fun hstep => hstep.generated hD) hdeclared
  have hsettled : Generated db e bits s₃ :=
    h.completing.keeps (fun hstep => hstep.generated hD) hfilled
  have hchecked := checkEntries_generated hsettled hkind hbits
  exact h.finishing.keeps (fun hstep => hstep.generated hD) hchecked

/-- The entries are checked against the enums and classes of the finished model. -/
theorem Course.isDeclaredEnum_final {env : Env} {s₀ s₁ s₂ s₃ s₄ : State}
    (h : Course env s₀ s₁ s₂ s₃ s₄) {classes : List ClassId}
    (hregistry : (settlePoliciesAll classes s₄).registry = s₁.registry) :
    isDeclaredEnum s₃ = isDeclaredEnum (settlePoliciesAll classes s₄) := by
  have hchecked : SameEnums s₃ (checkEntries s₃) :=
    List.foldlRecOn (motive := SameEnums s₃) s₃.db.entries checkEntry (.refl s₃)
      fun t ht e _ => ht.trans (checkEntry_frame t e).1
  have hsettled : SameEnums s₄ (settlePoliciesAll classes s₄) := by
    refine ⟨rfl, fun i => ?_, fun i => ?_⟩
    · exact (settlePoliciesAll_frame classes s₄ i).2.2.1
    · exact (settlePoliciesAll_frame classes s₄ i).1
  have hfinished := (hchecked.trans (h.finishing.sameEnums (by decide))).trans hsettled
  exact (hfinished.isDeclaredEnum (hregistry.trans h.registry.symm)).symm

theorem enumQualifier?_of_enum {e : Entry} (hkind : e.kind = .enumeration) :
    e.enumQualifier? = some (Text.qualifier e.name) := by
  obtain ⟨id?, name, detail⟩ := e
  cases detail with
  | enumeration => rfl
  | complex kind => cases kind <;> cases hkind
  | _ => cases hkind

/-- An enum is found by an enum of its name in the only registered class with its qualifier. -/
theorem isDeclaredEnum_of_unique {s : State} {e : Entry} (hkind : e.kind = .enumeration)
    (hqualified : Text.qualifier e.name ≠ "") {i : ClassId} (hi : i ∈ s.registry.members)
    (hname : (s.store.get i).qualifiedName = Text.qualifier e.name)
    (honly : ∀ j ∈ s.registry.members,
      (s.store.get j).qualifiedName = Text.qualifier e.name → j = i)
    (hd : ∃ d ∈ (s.store.get i).enums, d.name = e.localName) : isDeclaredEnum s e = true := by
  have hfound : s.registry.findByName? s.store (Text.qualifier e.name) = some i := by
    cases hfind : s.registry.findByName? s.store (Text.qualifier e.name) with
    | none =>
      have hnone := List.find?_eq_none.mp hfind i hi
      simp [hname] at hnone
    | some j =>
      have hj := List.find?_some hfind
      rw [honly j (List.mem_of_find?_eq_some hfind) (by simpa using hj)]
  obtain ⟨d, hd, hlocal⟩ := hd
  unfold isDeclaredEnum
  rw [enumQualifier?_of_enum hkind, Option.getD_some]
  split
  · next hempty => exact absurd hempty hqualified
  · rw [hfound, Option.any_some]
    exact List.find?_isSome.mpr ⟨d, hd, by simpa using hlocal⟩

/-- Let an enum entry be generated, and let nothing that the header declares under its name be
private or rejected. The assembly switches the entry off exactly if it is neither global with an
enum of its own, nor has the first registered class with its qualifier an enum of its name. -/
theorem enums_switched_off {config : Config} {header : Header} {db : Database} {m : Model}
    (hm : (assemble config header db).result = .ok m) (hdb : db.Numbered) {e : Entry}
    (he : e ∈ db.entries) (hkind : e.kind = .enumeration)
    (hon : db.generatesTargetLang e = true) (hD : Admitted header.enumsIn db e) :
    (∃ classes s, run (.make config header) { db } = .ok classes s ∧ m = s.model classes ∧
      ((assemble config header db).db.state e).codegen =
        if isDeclaredEnum s e then (db.state e).codegen else noCode) ∧
    (Text.qualifier e.name = "" → (∃ d ∈ m.globalEnums, d.entry.same e = true) →
      (assemble config header db).db.generatesTargetLang e = true) ∧
    (Text.qualifier e.name ≠ "" → ∀ i, (i ∈ m.classes ∨ i ∈ m.interfaces) →
      (m.store.get i).qualifiedName = Text.qualifier e.name →
      (∀ j, (j ∈ m.classes ∨ j ∈ m.interfaces) →
        (m.store.get j).qualifiedName = Text.qualifier e.name → j = i) →
      (∃ d ∈ (m.store.get i).enums, d.name = e.localName) →
      (assemble config header db).db.generatesTargetLang e = true) := by
  obtain ⟨classes, s, hrun, rfl⟩ := assemble_eq_ok.mp hm
  have hordered := run_ordered hrun
  have hmembers : ∀ c, c ∈ s.registry.members ↔
      c ∈ (s.model classes).classes ∨ c ∈ (s.model classes).interfaces := by
    intro c
    show _ ↔ c ∈ classes ∨ c ∈ s.registry.members.filter fun i => (s.store.get i).isInterface
    rw [hordered.mem_iff, List.mem_filter]
    cases (s.store.get c).isInterface <;> simp
  obtain ⟨t, hdeclare, hstocked⟩ := run_stocked hrun
  obtain ⟨s₁, s₂, s₃, s₄, hcourse, rfl⟩ := run_course hrun
  obtain ⟨-, rfl⟩ : () = () ∧ t = s₁ := by
    simpa using hdeclare.symm.trans hcourse.declares
  have hcodegen : ((assemble config header db).db.state e).codegen =
      if isDeclaredEnum (settlePoliciesAll classes s₄) e then (db.state e).codegen else noCode := by
    rw [db_assemble, hrun, ← hcourse.isDeclaredEnum_final hstocked.registry]
    exact (hcourse.generated hD hkind hon ⟨hdb, he, rfl, rfl⟩).codegen
  have hkept : isDeclaredEnum (settlePoliciesAll classes s₄) e = true →
      (assemble config header db).db.generatesTargetLang e = true := by
    intro hdeclared
    unfold Database.generatesTargetLang
    rwa [hcodegen, if_pos hdeclared]
  refine ⟨⟨classes, _, hrun, rfl, hcodegen⟩, fun hglobal hd => hkept ?_,
    fun hqualified i hi hname honly hd => hkept ?_⟩
  · unfold isDeclaredEnum
    rw [enumQualifier?_of_enum hkind, Option.getD_some, hglobal]
    exact List.any_eq_true.mpr hd
  · exact isDeclaredEnum_of_unique hkind hqualified ((hmembers i).mpr hi) hname
      (fun j hj => honly j ((hmembers j).mp hj)) hd

/-- Rules for an enum of a template and for two enums of a namespace. -/
def flavorRules : Database :=
  let (_, db) := Database.initial.add "Holder" (.complex .container {})
  let (_, db) := db.add "Holder::Kind" .enumeration
  let (_, db) := db.add "NS" (.complex .namespaceScope {})
  let (_, db) := db.add "NS::Flavor" .enumeration
  (db.add "NS::Mode" .enumeration).2

/-- The namespace is opened twice, each time with an enum. -/
def flavorHeader : Header where
  global.classes := [
    { decls := { name := "Holder<T>"
                 enums := [{ name := "Kind", enumerators := [{ name := "K", value := 1 }] }] }
      templateParams := ["T"] }]
  global.namespaces := [
    { decls := { name := "NS"
                 enums := [{ name := "Flavor", enumerators := [{ name := "F", value := 1 }] }] } },
    { decls := { name := "NS"
                 enums := [{ name := "Mode", enumerators := [{ name := "M", value := 1 }] }] } }]

theorem enums_switched_off_flavor :
    ∃ m, (assemble {} flavorHeader flavorRules).result = .ok m ∧
      ∃ classes s, run (.make {} flavorHeader) { db := flavorRules } = .ok classes s ∧
        m = s.model classes ∧ isDeclaredEnum s ⟨some 5, "NS::Flavor", .enumeration⟩ = true ∧
        ((assemble {} flavorHeader flavorRules).db.state
          ⟨some 5, "NS::Flavor", .enumeration⟩).codegen =
            (flavorRules.state ⟨some 5, "NS::Flavor", .enumeration⟩).codegen := by
  have hrules : flavorRules.Numbered :=
    (((((Database.numbered_initial.add "Holder" (.complex .container {}) (by decide)).add
      "Holder::Kind" .enumeration (by decide)).add
      "NS" (.complex .namespaceScope {}) (by decide)).add
      "NS::Flavor" .enumeration (by decide)).add
      "NS::Mode" .enumeration (by decide))
  have hadmitted : ∀ x ∈ flavorHeader.enumsIn, x.2.access ≠ .priv ∧
      flavorRules.rejection? .enumeration x.1 x.2.name = none := by decide +kernel
  obtain ⟨m, hm, -⟩ := exists_model_of_any (p := fun _ => true)
    (show (assemble {} flavorHeader flavorRules).result.toOption.any _ = true by decide +kernel)
  have hon : (assemble {} flavorHeader flavorRules).db.generatesTargetLang
      ⟨some 5, "NS::Flavor", .enumeration⟩ = true := by decide +kernel
  obtain ⟨⟨classes, s, hrun, hmodel, hcodegen⟩, -⟩ := enums_switched_off hm hrules
    (e := ⟨some 5, "NS::Flavor", .enumeration⟩) (List.mem_of_getElem? (i := 5) (by rfl)) rfl
    (by decide +kernel) fun scope d hd _ => hadmitted (scope, d) hd
  have hdeclared : isDeclaredEnum s ⟨some 5, "NS::Flavor", .enumeration⟩ = true := by
    by_contra hmissing
    unfold Database.generatesTargetLang at hon
    rw [hcodegen, if_neg hmissing] at hon
    exact absurd hon (by decide)
  rw [if_pos hdeclared] at hcodegen
  exact ⟨m, hm, classes, s, hrun, hmodel, hdeclared, hcodegen⟩

/-- The template and the second class of the namespace have their enums, but are not looked at. -/
theorem enums_missing :
    ∃ m, (assemble {} flavorHeader flavorRules).result = .ok m ∧
      m.templates.map (fun i => (m.store.get i).enums.map (·.qualifiedName)) =
        [["Holder::Kind"]] ∧
      m.classes.map (fun i => (m.store.get i).enums.map (·.qualifiedName)) =
        [["NS::Flavor"], ["NS::Mode"]] ∧
      (flavorRules.entries.filter (·.isKind .enumeration)).map (fun e =>
        (e.name, flavorRules.generatesTargetLang e,
          (assemble {} flavorHeader flavorRules).db.generatesTargetLang e)) =
        [("Holder::Kind", true, false), ("NS::Flavor", true, true), ("NS::Mode", true, false)] := by
  obtain ⟨m, hm, hfacts⟩ := exists_model_of_any (p := fun m =>
    decide (m.templates.map (fun i => (m.store.get i).enums.map (·.qualifiedName)) =
      [["Holder::Kind"]]) &&
    decide (m.classes.map (fun i => (m.store.get i).enums.map (·.qualifiedName)) =
      [["NS::Flavor"], ["NS::Mode"]]))
    (show (assemble {} flavorHeader flavorRules).result.toOption.any _ = true by decide +kernel)
  simp only [Bool.and_eq_true, decide_eq_true_eq] at hfacts
  exact ⟨m, hm, hfacts.1, hfacts.2, by decide +kernel⟩

end Assembly
end BindingModel
