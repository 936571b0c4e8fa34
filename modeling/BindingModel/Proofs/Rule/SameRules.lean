import BindingModel.Proofs.Rule.Growth

/-! What an assembly reads from a rule database. Include paths, null values, aliases of primitives
and base containers are not read: they are kept for those who use the rules afterwards. -/
namespace BindingModel.Database

theorem state_modify (db : Database) (e d : Entry) (f : EntryState → EntryState) :
    (db.modify e f).state d =
      if e.same d ∧ d.id?.any (· < db.states.size) then f (db.state d) else db.state d := by
  obtain ⟨e?, _, _⟩ := e
  obtain ⟨d?, _, _⟩ := d
  cases e? with
  | none => simp [modify, Entry.same]
  | some i =>
    cases d? with
    | none => simp [state, Entry.same]
    | some k =>
      by_cases hk : k < db.states.size
      · by_cases hi : i = k <;>
          simp [modify, state, Entry.same, Array.getElem?_modify, hk, hi]
      · simp [modify, state, Array.getElem?_modify, hk]

theorem state_create (db : Database) (name : String) (detail : EntryDetail Entry) (d : Entry) :
    (db.create name detail).2.state d =
      if d.id? = some db.states.size then { entry := (db.create name detail).1 }
      else db.state d := by
  obtain ⟨d?, _, _⟩ := d
  cases d? with
  | none => simp [state]
  | some k =>
    by_cases hk : k = db.states.size
    · simp [create, state, hk]
    · simp [create, state, Array.getElem?_push, hk]

/-- The rules without what is known of each entry. -/
def listed (db : Database) : Database := { db with states := #[] }

theorem listed_modify (db : Database) (e : Entry) (f : EntryState → EntryState) :
    (db.modify e f).listed = db.listed ∧ (db.modify e f).states.size = db.states.size := by
  unfold modify
  split
  · exact ⟨rfl, Array.size_modify⟩
  · exact ⟨rfl, rfl⟩

theorem listed_register (db : Database) (e : Entry) :
    (db.register e).listed = db.listed.register e ∧ (db.register e).states = db.states := by
  fun_induction register db e with
  | case1 db id? name source target e hany =>
    unfold register
    exact ⟨(if_pos hany).symm, rfl⟩
  | case2 db id? name source target e hany ih =>
    obtain ⟨hlisted, hstates⟩ := ih
    refine ⟨?_, hstates⟩
    conv => rhs; unfold register
    exact hlisted.trans (if_neg hany).symm
  | case3 db e hne hany =>
    rw [register.eq_2 _ _ hne]
    exact ⟨(if_pos hany).symm, rfl⟩
  | case4 db e hne hany =>
    rw [register.eq_2 _ _ hne]
    exact ⟨(if_neg hany).symm, rfl⟩

/-- Both have the same entries and rules, of which the same is generated and modified. -/
structure SameRules (db db' : Database) : Prop where
  size : db.states.size = db'.states.size
  listed : db.listed = db'.listed
  codegen : ∀ e, (db.state e).codegen = (db'.state e).codegen
  stateMods : ∀ e, (db.state e).mods = (db'.state e).mods

namespace SameRules
variable {db db' db'' : Database}

theorem refl (db : Database) : db.SameRules db := ⟨rfl, rfl, fun _ => rfl, fun _ => rfl⟩

theorem symm (h : db.SameRules db') : db'.SameRules db :=
  ⟨h.size.symm, h.listed.symm, fun e => (h.codegen e).symm, fun e => (h.stateMods e).symm⟩

theorem trans (h : db.SameRules db') (k : db'.SameRules db'') : db.SameRules db'' :=
  ⟨h.size.trans k.size, h.listed.trans k.listed, fun e => (h.codegen e).trans (k.codegen e),
    fun e => (h.stateMods e).trans (k.stateMods e)⟩

variable (h : db.SameRules db')
include h

/-! ### What is read -/

theorem entries : db.entries = db'.entries := congrArg (·.entries) h.listed

theorem typedefs : db.typedefs = db'.typedefs := congrArg (·.typedefs) h.listed

theorem rejections : db.rejections = db'.rejections := congrArg (·.rejections) h.listed

theorem globalAdded : db.globalAdded = db'.globalAdded := congrArg (·.globalAdded) h.listed

theorem globalMods : db.globalMods = db'.globalMods := congrArg (·.globalMods) h.listed

theorem policies : db.policies = db'.policies := congrArg (·.policies) h.listed

theorem named : db.named = db'.named := by
  funext name
  unfold Database.named
  rw [h.entries]

theorem findType? : db.findType? = db'.findType? := by
  funext name
  unfold Database.findType?
  rw [h.named]

theorem findComplex? : db.findComplex? = db'.findComplex? := by
  funext name
  unfold Database.findComplex?
  rw [h.named]

theorem findPrimitive? : db.findPrimitive? = db'.findPrimitive? := by
  funext name
  unfold Database.findPrimitive?
  rw [h.named]

theorem findNamespace? : db.findNamespace? = db'.findNamespace? := by
  funext name
  unfold Database.findNamespace?
  rw [h.named]

theorem findFunction? : db.findFunction? = db'.findFunction? := by
  funext name
  unfold Database.findFunction?
  rw [h.named]

theorem findContainer? : db.findContainer? = db'.findContainer? := by
  funext name
  unfold Database.findContainer?
  rw [h.findType?]

theorem findFlags? : db.findFlags? = db'.findFlags? := by
  funext name
  unfold Database.findFlags?
  rw [h.findType?, h.entries]

theorem candidates : db.candidates = db'.candidates := by
  funext name
  unfold Database.candidates
  rw [h.entries]

theorem rejection? : db.rejection? = db'.rejection? := by
  funext kind className name
  unfold Database.rejection?
  rw [h.rejections]

theorem generates : db.generates = db'.generates := by
  funext e
  unfold Database.generates EntryState.generates
  rw [h.codegen]

theorem generatesTargetLang : db.generatesTargetLang = db'.generatesTargetLang := by
  funext e
  unfold Database.generatesTargetLang
  rw [h.codegen]

theorem mods : db.mods = db'.mods := by
  funext e
  unfold Database.mods
  rw [h.stateMods]

theorem modsFor : db.modsFor = db'.modsFor := by
  funext e signature
  unfold Database.modsFor
  rw [h.mods]

theorem globalModsFor : db.globalModsFor = db'.globalModsFor := by
  funext signature
  unfold Database.globalModsFor
  rw [h.globalMods]

omit h

/-! ### What is written -/

theorem foldl {α : Type} {f g : Database → α → Database} (h : db.SameRules db') {l : List α}
    (hf : ∀ db db', db.SameRules db' → ∀ a ∈ l, (f db a).SameRules (g db' a)) :
    (l.foldl f db).SameRules (l.foldl g db') := by
  induction l generalizing db db' with
  | nil => exact h
  | cons a l ih =>
    exact ih (hf db db' h a List.mem_cons_self) fun db db' h b hb =>
      hf db db' h b (List.mem_cons_of_mem a hb)

theorem modify (h : db.SameRules db') (e : Entry) {f f' : EntryState → EntryState}
    (hf : ∀ s s', s.codegen = s'.codegen → s.mods = s'.mods →
      (f s).codegen = (f' s').codegen ∧ (f s).mods = (f' s').mods) :
    (db.modify e f).SameRules (db'.modify e f') := by
  have hstate : ∀ d, ((db.modify e f).state d).codegen = ((db'.modify e f').state d).codegen ∧
      ((db.modify e f).state d).mods = ((db'.modify e f').state d).mods := by
    intro d
    rw [state_modify, state_modify, h.size]
    split
    · exact hf _ _ (h.codegen d) (h.stateMods d)
    · exact ⟨h.codegen d, h.stateMods d⟩
  obtain ⟨hlisted, hsize⟩ := listed_modify db e f
  obtain ⟨hlisted', hsize'⟩ := listed_modify db' e f'
  exact ⟨by rw [hsize, hsize', h.size], by rw [hlisted, hlisted', h.listed],
    fun d => (hstate d).1, fun d => (hstate d).2⟩

theorem setCodegen (h : db.SameRules db') (e : Entry) (bits : Nat) :
    (db.setCodegen e bits).SameRules (db'.setCodegen e bits) :=
  h.modify e fun _ _ _ hmods => ⟨rfl, hmods⟩

theorem addMod (h : db.SameRules db') (e : Entry) (m : FunctionMod) :
    (db.addMod e m).SameRules (db'.addMod e m) := by
  unfold Database.addMod
  split
  · exact h.modify e fun _ _ hcodegen hmods => ⟨hcodegen, by rw [hmods]⟩
  · exact h

/-- What is not read makes no difference. -/
theorem modify_unread (db : Database) (e : Entry) {f : EntryState → EntryState}
    (hf : ∀ s, (f s).codegen = s.codegen ∧ (f s).mods = s.mods) : db.SameRules (db.modify e f) := by
  obtain ⟨hlisted, hsize⟩ := listed_modify db e f
  refine ⟨hsize.symm, hlisted.symm, fun d => ?_, fun d => ?_⟩ <;> rw [state_modify] <;> split
  · exact (hf _).1.symm
  · rfl
  · exact (hf _).2.symm
  · rfl

theorem setInclude (db : Database) (e : Entry) (path : String) :
    db.SameRules (db.setInclude e path) :=
  .modify_unread db e fun _ => ⟨rfl, rfl⟩

theorem setNullValue (db : Database) (e : Entry) (name : String) :
    db.SameRules (db.setNullValue e name) := by
  unfold Database.setNullValue
  split
  · exact .modify_unread db e fun _ => ⟨rfl, rfl⟩
  · exact .refl db

theorem setReferenced (db : Database) (e target : Entry) :
    db.SameRules (db.setReferenced e target) := by
  unfold Database.setReferenced
  split
  · exact .modify_unread db e fun _ => ⟨rfl, rfl⟩
  · exact .refl db

theorem setBaseContainer (db : Database) (e container : Entry) :
    db.SameRules (db.setBaseContainer e container) := by
  unfold Database.setBaseContainer
  split
  · exact .modify_unread db e fun _ => ⟨rfl, rfl⟩
  · exact .refl db

/-- Changes that leave the rules the same are made to rules that are the same. -/
theorem changed {u u' : Database} (h : db.SameRules db') (hu : db.SameRules u)
    (hu' : db'.SameRules u') : u.SameRules u' :=
  (hu.symm.trans h).trans hu'

theorem register (h : db.SameRules db') (e : Entry) :
    (db.register e).SameRules (db'.register e) := by
  obtain ⟨hlisted, hstates⟩ := listed_register db e
  obtain ⟨hlisted', hstates'⟩ := listed_register db' e
  have hstate : ∀ d, (db.register e).state d = db.state d ∧
      (db'.register e).state d = db'.state d := by
    intro d
    unfold state
    rw [hstates, hstates']
    exact ⟨rfl, rfl⟩
  exact ⟨by rw [hstates, hstates', h.size], by rw [hlisted, hlisted', h.listed],
    fun d => by rw [(hstate d).1, (hstate d).2, h.codegen],
    fun d => by rw [(hstate d).1, (hstate d).2, h.stateMods]⟩

/-- The same entry is added. -/
theorem add (h : db.SameRules db') (name : String) (detail : EntryDetail Entry) :
    (db.add name detail).1 = (db'.add name detail).1 ∧
      (db.add name detail).2.SameRules (db'.add name detail).2 := by
  have hentry : (db.create name detail).1 = (db'.create name detail).1 := by
    unfold create
    rw [h.size]
  have hcreate : (db.create name detail).2.SameRules (db'.create name detail).2 := by
    refine ⟨?_, h.listed, fun d => ?_, fun d => ?_⟩
    · simp [create, h.size]
    · rw [state_create, state_create, h.size]
      split
      · rfl
      · exact h.codegen d
    · rw [state_create, state_create, h.size]
      split
      · rfl
      · exact h.stateMods d
  refine ⟨hentry, ?_⟩
  unfold Database.add
  dsimp only
  rw [← hentry]
  exact hcreate.register _

end SameRules

/-! ### Rules that grow -/

variable {h : Header} {db db' : Database}

theorem Step.listed (hs : Step h db db') :
    db.states.size < db'.states.size ∨
      db'.states.size = db.states.size ∧ db'.listed = db.listed := by
  rcases hs.change with ⟨e, f, rfl⟩ | rfl | ⟨name, detail, rfl, -⟩
  · exact .inr (listed_modify db e f).symm
  · exact .inr ⟨rfl, rfl⟩
  · left
    unfold add
    dsimp only
    rw [(listed_register _ _).2]
    simp [create]

theorem Grows.listed (hg : Grows h db db') :
    db.states.size < db'.states.size ∨
      db'.states.size = db.states.size ∧ db'.listed = db.listed := by
  induction hg with
  | refl => exact .inr ⟨rfl, rfl⟩
  | tail _ hstep ih =>
    rcases ih with hlt | ⟨hsize, hlisted⟩
    · rcases hstep.listed with hmore | ⟨hsame, -⟩
      · exact .inl (Nat.lt_trans hlt hmore)
      · exact .inl (hsame ▸ hlt)
    · rcases hstep.listed with hmore | ⟨hsame, hnext⟩
      · exact .inl (hsize ▸ hmore)
      · exact .inr ⟨hsame.trans hsize, hnext.trans hlisted⟩

/-- Rules that grew are the same when no entry was created, none was switched off and none was given
a function modification. -/
theorem Grows.sameRules (hg : Grows h db db') (hsize : db'.states.size = db.states.size)
    (hcodegen : ∀ e, (db'.state e).codegen = (db.state e).codegen)
    (hmods : ∀ e, (db'.state e).mods = (db.state e).mods) : db.SameRules db' := by
  have hlisted : db'.listed = db.listed := by
    rcases hg.listed with hlt | ⟨-, hlisted⟩
    · exact absurd hsize (Nat.ne_of_gt hlt)
    · exact hlisted
  exact ⟨hsize.symm, hlisted.symm, fun e => (hcodegen e).symm, fun e => (hmods e).symm⟩

end BindingModel.Database
