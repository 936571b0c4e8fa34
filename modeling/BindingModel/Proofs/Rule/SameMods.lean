import BindingModel.Proofs.Rule.SameRules

/-! What an assembly learns of a rule database besides function modifications. -/
namespace BindingModel.Database

theorem globalMods_register (db : Database) (e : Entry) :
    (db.register e).globalMods = db.globalMods := by
  fun_induction register db e with
  | case1 => rfl
  | case2 _ _ _ _ _ _ _ ih => exact ih
  | case3 => rfl
  | case4 => rfl

/-- Both modify the same functions in the same way. -/
structure SameMods (db db' : Database) : Prop where
  state : ∀ e, (db'.state e).mods = (db.state e).mods
  globalMods : db'.globalMods = db.globalMods

namespace SameMods
variable {db db' db'' : Database}

theorem refl (db : Database) : db.SameMods db := ⟨fun _ => rfl, rfl⟩

theorem trans (h : db.SameMods db') (k : db'.SameMods db'') : db.SameMods db'' :=
  ⟨fun e => (k.state e).trans (h.state e), k.globalMods.trans h.globalMods⟩

theorem symm (h : db.SameMods db') : db'.SameMods db :=
  ⟨fun e => (h.state e).symm, h.globalMods.symm⟩

theorem of_rules (h : db.SameRules db') : db.SameMods db' :=
  ⟨fun e => (h.stateMods e).symm, h.globalMods.symm⟩

theorem foldl {α : Type} {f : Database → α → Database}
    (hf : ∀ (db : Database) a, db.SameMods (f db a))
    (l : List α) (db : Database) : db.SameMods (l.foldl f db) :=
  List.foldlRecOn l f (refl db) fun u hu a _ => hu.trans (hf u a)

theorem modsFor (h : db.SameMods db') : db'.modsFor = db.modsFor := by
  funext e signature
  unfold Database.modsFor mods
  rw [h.state]

theorem setCodegen (db : Database) (e : Entry) (bits : Nat) :
    db.SameMods (db.setCodegen e bits) := by
  refine ⟨fun d => ?_, congrArg (·.globalMods) (listed_modify db e _).1⟩
  unfold Database.setCodegen
  rw [state_modify]
  split <;> rfl

theorem add (db : Database) (name : String) (detail : EntryDetail Entry) :
    db.SameMods (db.add name detail).2 := by
  unfold Database.add
  obtain ⟨hlisted, hstates⟩ := listed_register (db.create name detail).2 (db.create name detail).1
  refine ⟨fun d => ?_, ?_⟩
  · have hstate : ((db.create name detail).2.register (db.create name detail).1).state d =
        (db.create name detail).2.state d := by
      unfold Database.state
      rw [hstates]
    show (((db.create name detail).2.register (db.create name detail).1).state d).mods = _
    rw [hstate, state_create]
    split
    · next hnew =>
      have hfresh : db.state d = { entry := d } := by
        unfold Database.state
        rw [hnew]
        simp
      rw [hfresh]
    · rfl
  · exact globalMods_register _ _

end SameMods
end BindingModel.Database
