import BindingModel.Proofs.Assembly.Failure

/-! The functions of a finished model. Those of a class were made for it, none of them is a
destructor, and the arguments of every function are numbered and named. -/
namespace BindingModel
open Api Header

namespace Api.ClassStore
variable {s : ClassStore}

/-- Every function of a class was made for that class. -/
def Owned (s : ClassStore) : Prop := ∀ i, ∀ f ∈ (s.get i).functions, f.BelongsTo i

theorem Owned.modify (h : s.Owned) {i : ClassId} {f : BoundClass → BoundClass}
    (hf : ∀ g ∈ (f (s.get i)).functions, g.BelongsTo i) : (s.modify i f).Owned := by
  intro j g hg
  rw [get_modify] at hg
  split at hg
  · next hij =>
    obtain ⟨rfl, -⟩ := hij
    exact hf g hg
  · exact h j g hg

theorem Owned.create (h : s.Owned) {c : BoundClass} (hc : c.functions = []) :
    (s.create c).2.Owned := by
  intro j g hg
  rcases s.get_create c j with hj | hj
  · rw [hj] at hg
    exact h j g hg
  · rw [hj, hc] at hg
    cases hg

theorem lt_size_of_mem_functions {i : ClassId} {f : Function} (h : f ∈ (s.get i).functions) :
    i < s.classes.size := by
  by_contra hi
  rw [s.get_of_size_le (Nat.not_lt.mp hi)] at h
  cases h

end Api.ClassStore

namespace Assembly

theorem modsOf_of_isLive {s : ClassStore} {i : ClassId} (hlive : s.isLive i = true) {f : Function}
    (hf : f.implementing? = some i) (db : Database) :
    s.modsOf db f = db.modsFor (s.get i).entry f.signature := by
  have hfollow : s.follow? f.implementing? = some i := by
    rw [hf]
    exact Option.filter_eq_some_iff.mpr ⟨rfl, hlive⟩
  unfold ClassStore.modsOf
  rw [hfollow]

theorem modsOf_of_implementing {s : ClassStore} {i : ClassId} (hreleased : s.released = [])
    (hlt : i < s.classes.size) {f : Function} (hf : f.implementing? = some i) (db : Database) :
    s.modsOf db f = db.modsFor (s.get i).entry f.signature :=
  modsOf_of_isLive (by simp [ClassStore.isLive, hreleased, hlt]) hf db

/-- No class is lost, and every function was made for the place where it stands. -/
structure WellMade (s : State) : Prop where
  released : s.store.released = []
  owned : s.store.Owned
  free : ∀ f ∈ s.globalFunctions, f.IsFree

namespace WellMade
variable {header : Header} {s t : State}

theorem initial (db : Database) : WellMade { db } := by
  refine ⟨rfl, fun i f hf => ?_, fun f hf => ?_⟩
  · rw [ClassStore.get_of_size_le _ (Nat.zero_le i)] at hf
    cases hf
  · cases hf

theorem change (h : WellMade s) (hc : Change header s t) : WellMade t := by
  cases hc with
  | aside _ hstore hfree =>
    exact ⟨hstore ▸ h.released, hstore ▸ h.owned, hfree ▸ h.free⟩
  | learn => exact ⟨h.released, h.owned, h.free⟩
  | create _ hnone => exact ⟨h.released, h.owned.create hnone, h.free⟩
  | edit i hf =>
    refine ⟨h.released, h.owned.modify fun g hg => ?_, h.free⟩
    rw [BoundClass.functions_eq_of_core (hf _)] at hg
    exact h.owned i g hg
  | addField i f => exact ⟨h.released, h.owned.modify (h.owned i), h.free⟩
  | addMember i hf =>
    refine ⟨h.released, h.owned.modify fun g hg => ?_, h.free⟩
    rcases List.mem_append.mp hg with hg | hg
    · exact h.owned i g hg
    · obtain rfl := List.mem_singleton.mp hg
      exact hf _
  | takeOver i hmem hf =>
    refine ⟨h.released, h.owned.modify fun g hg => ?_, h.free⟩
    rcases List.mem_append.mp hg with hg | hg
    · exact h.owned i g hg
    · obtain rfl := List.mem_singleton.mp hg
      exact hf (h.owned _ _ hmem)
  | settle i p =>
    refine ⟨h.released, h.owned.modify fun g hg => ?_, h.free⟩
    obtain ⟨f, hf, rfl⟩ := List.mem_map.mp hg
    exact (SameMaking.settle f (p f)).belongsTo (h.owned i f hf)
  | addFree hf =>
    refine ⟨h.released, h.owned, fun g hg => ?_⟩
    rcases List.mem_append.mp hg with hg | hg
    · exact h.free g hg
    · obtain rfl := List.mem_singleton.mp hg
      exact hf
  | settleFree p =>
    refine ⟨h.released, h.owned, fun g hg => ?_⟩
    obtain ⟨f, hf, rfl⟩ := List.mem_map.mp hg
    exact (SameMaking.settle f (p f)).isFree (h.free f hf)

theorem evolves (h : WellMade s) (he : Evolves header s t) : WellMade t := by
  induction he with
  | refl => exact h
  | tail _ hc ih => exact ih.change hc

theorem isLive (h : WellMade s) {i : ClassId} {f : Function} (hf : f ∈ (s.store.get i).functions) :
    s.store.isLive i = true := by
  simp [ClassStore.isLive, h.released, ClassStore.lt_size_of_mem_functions hf]

end WellMade

/-- Every function that a class of a finished model has was declared and is implemented by that
class and is no destructor; a global function has no class that implements it. Every argument has
its position as index and has a name. -/
theorem functions_made {config : Config} {header : Header} {db : Database} {m : Model}
    (hm : (assemble config header db).result = .ok m) :
    (∀ c ∈ m.allClasses, ∀ f ∈ (m.store.get c).functions,
      m.store.follow? f.declaring? = some c ∧ m.store.follow? f.implementing? = some c ∧
        f.kind ≠ .destructor ∧
        ∀ (k : Nat) (a : Argument), f.args[k]? = some a → a.index = k ∧ a.name ≠ "") ∧
    ∀ f ∈ m.globalFunctions, f.implementing? = none ∧
      ∀ (k : Nat) (a : Argument), f.args[k]? = some a → a.index = k ∧ a.name ≠ "" := by
  obtain ⟨classes, s, hrun, rfl⟩ := assemble_eq_ok.mp hm
  have hmade := (WellMade.initial db).evolves ((run_outcome _ _).of_ok hrun)
  refine ⟨fun c _ f hf => ?_, fun f hf => ?_⟩
  · have hbelongs := hmade.owned c f hf
    have hlink : s.store.follow? (some c) = some c :=
      Option.filter_eq_some_iff.mpr ⟨rfl, hmade.isLive hf⟩
    refine ⟨?_, ?_, hbelongs.kind_ne, fun _ _ => hbelongs.labelled.label_eq⟩
    · rw [hbelongs.declaring]
      exact hlink
    · rw [hbelongs.implementing]
      exact hlink
  · have hfree := hmade.free f hf
    exact ⟨hfree.implementing, fun _ _ => hfree.labelled.label_eq⟩

/-- Rules for a type, a class and a function. -/
def boxRules : Database :=
  let (_, db) := Database.initial.add "int" .primitive
  let (_, db) := db.add "Box" (.complex .object {})
  (db.add "pack" (.function ["pack(int)"])).2

/-- A class with a destructor and a function of two unnamed arguments, and a free function. -/
def boxHeader : Header where
  global.classes := [{ decls := {
    name := "Box"
    functions := [
      { name := "~Box", kind := .destructor },
      { name := "put", args := [⟨"", .ofName "int", none⟩, ⟨"", .ofName "int", none⟩] }] } }]
  global.decls.functions := [{ name := "pack", args := [⟨"", .ofName "int", none⟩] }]

theorem functions_made_box :
    ∃ m, (assemble {} boxHeader boxRules).result = .ok m ∧
      (m.allClasses.map fun c => (m.store.get c).functions.map fun f => f.args.length) = [[2, 0]] ∧
      (∀ c ∈ m.allClasses, ∀ f ∈ (m.store.get c).functions, m.store.follow? f.declaring? = some c) ∧
      m.globalFunctions.length = 1 ∧ ∀ f ∈ m.globalFunctions, f.implementing? = none := by
  have hshape : (assemble {} boxHeader boxRules).result.toOption.map (fun m =>
      (m.allClasses.map fun c => (m.store.get c).functions.map fun f => f.args.length,
        m.globalFunctions.length)) = some ([[2, 0]], 1) := by decide +kernel
  cases hm : (assemble {} boxHeader boxRules).result with
  | error e =>
    rw [hm] at hshape
    cases hshape
  | ok m =>
    rw [hm] at hshape
    obtain ⟨hmembers, hfree⟩ := Prod.mk.inj (Option.some.inj hshape)
    have hmade := functions_made hm
    exact ⟨m, rfl, hmembers, fun c hc f hf => (hmade.1 c hc f hf).1, hfree,
      fun f hf => (hmade.2 f hf).1⟩

end Assembly
end BindingModel
