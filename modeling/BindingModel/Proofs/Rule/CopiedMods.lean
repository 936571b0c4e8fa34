import BindingModel.Proofs.Rule.Learning
import BindingModel.Proofs.Rule.SameMods

/-! The modifications that a rule database gains. Those that an entry has stay in front. -/
namespace BindingModel.Database
variable {h : Header} {db db' db'' : Database}

/-- Modifications and entries may have been added. -/
structure KeepsMods (db db' : Database) : Prop where
  mods : ∀ e, (db.state e).mods <+: (db'.state e).mods
  knows : ∀ e, db.Knows e → db'.Knows e

namespace KeepsMods

theorem refl (db : Database) : db.KeepsMods db := ⟨fun _ => List.prefix_rfl, fun _ => id⟩

theorem trans (h : db.KeepsMods db') (k : db'.KeepsMods db'') : db.KeepsMods db'' :=
  ⟨fun e => (h.mods e).trans (k.mods e), fun e he => k.knows e (h.knows e he)⟩

theorem modify (db : Database) (e : Entry) {f : EntryState → EntryState}
    (hf : ∀ s, (f s).entry = s.entry ∧ s.mods <+: (f s).mods) : db.KeepsMods (db.modify e f) := by
  refine ⟨fun d => ?_, (Extends.modify db e fun s => (hf s).1).knows⟩
  rw [state_modify]
  split
  · exact (hf _).2
  · exact List.prefix_rfl

theorem addMod (db : Database) (e : Entry) (m : FunctionMod) : db.KeepsMods (db.addMod e m) := by
  unfold Database.addMod
  split
  · exact modify db e fun s => ⟨rfl, List.prefix_append s.mods [m]⟩
  · exact refl db

theorem addMods (db : Database) (e : Entry) (l : List FunctionMod) :
    db.KeepsMods (l.foldl (·.addMod e ·) db) :=
  List.foldlRecOn l _ (refl db) fun _ hdb m _ => hdb.trans (addMod _ e m)

theorem of_step (hs : Step h db db') : db.KeepsMods db' := by
  have hunread : ∀ {db'}, db.SameRules db' → db.Learns db' → db.KeepsMods db' :=
    fun hrules hlearns => ⟨fun e => hrules.stateMods e ▸ List.prefix_rfl, hlearns.knows⟩
  cases hs with
  | disable e => exact modify db e fun _ => ⟨rfl, List.prefix_rfl⟩
  | setInclude e path => exact hunread (.setInclude db e path) (.setInclude db e path)
  | setNullValue e name => exact hunread (.setNullValue db e name) (.setNullValue db e name)
  | setReferenced e target => exact hunread (.setReferenced db e target) (.setReferenced db e target)
  | setBaseContainer e container =>
    exact hunread (.setBaseContainer db e container) (.setBaseContainer db e container)
  | addMod e m => exact addMod db e m
  | derive hd =>
    refine ⟨fun e => ?_, (Extends.add db _ hd.kind_ne_typedef).knows⟩
    exact (SameMods.add db _ _).state e ▸ List.prefix_rfl

theorem of_grows (hg : Grows h db db') : db.KeepsMods db' := by
  induction hg with
  | refl => exact refl db
  | tail _ hs ih => exact ih.trans (of_step hs)

theorem modsFor (h : db.KeepsMods db') (e : Entry) (signature : String) :
    db.modsFor e signature <+: db'.modsFor e signature := by
  unfold Database.modsFor Database.mods
  split
  · exact (h.mods e).filter _
  · exact List.prefix_rfl

end KeepsMods

/-! ### Copied modifications -/

theorem state_addMods (db : Database) {e : Entry} (he : e.isComplex = true) (hknows : db.Knows e)
    (l : List FunctionMod) :
    ((l.foldl (·.addMod e ·) db).state e).mods = (db.state e).mods ++ l := by
  induction l generalizing db with
  | nil => exact (List.append_nil _).symm
  | cons m l ih =>
    have hadd : ((db.addMod e m).state e).mods = (db.state e).mods ++ [m] := by
      obtain ⟨n, hn, hlt⟩ := hknows
      unfold addMod
      rw [if_pos he, state_modify, if_pos]
      refine ⟨?_, ?_⟩
      · simp [Entry.same, hn]
      · simpa [hn] using hlt
    rw [List.foldl_cons, ih _ ((Learns.addMod db e m).knows e hknows), hadd, List.append_assoc]
    rfl

/-- Nothing is added to an entry without rules of its own. -/
theorem addMods_of_unknown {db : Database} {e : Entry} (h : ¬(e.isComplex = true ∧ db.Knows e))
    (l : List FunctionMod) : l.foldl (·.addMod e ·) db = db := by
  have hadd : ∀ m, db.addMod e m = db := by
    intro m
    unfold addMod
    split
    · next hcomplex =>
      unfold modify
      split
      · next n hn =>
        have hsize : db.states.size ≤ n := Nat.not_lt.mp fun hlt => h ⟨hcomplex, n, hn, hlt⟩
        have hstates : db.states.modify n (fun s => { s with mods := s.mods ++ [m] }) =
            db.states := by
          refine Array.ext (Array.size_modify ..) fun k _ hk => ?_
          rw [Array.getElem_modify, if_neg (Nat.ne_of_gt (Nat.lt_of_lt_of_le hk hsize))]
        rw [hstates]
      · rfl
    · rfl
  exact List.foldlRecOn (motive := (· = db)) l _ rfl fun _ hdb m _ => hdb ▸ hadd m

/-- What was copied for a signature covers it, behind what did before. -/
theorem modsFor_copies (db : Database) {e : Entry} (he : e.isComplex = true)
    (hknows : db.Knows e) (l : List FunctionMod) (signature : String) :
    ((l.map (·.forSignature signature)).foldl (·.addMod e ·) db).modsFor e signature =
      db.modsFor e signature ++ l.map (·.forSignature signature) := by
  have hcovers : ∀ m ∈ l.map (·.forSignature signature), m.covers signature = true := by
    intro m hm
    obtain ⟨m, -, rfl⟩ := List.mem_map.mp hm
    exact beq_self_eq_true _
  unfold modsFor mods
  rw [if_pos he, if_pos he, state_addMods db he hknows, List.filter_append,
    List.filter_eq_self.mpr hcovers]

end BindingModel.Database
