import BindingModel.Proofs.Api.Ancestors
import BindingModel.Proofs.Assembly.Hierarchy

/-! What a class of a finished model inherits from, against what its links lead to. The primary
bases are followed to the end and the interfaces were flattened, but the interfaces of a primary
base and the primary bases of an interface belong to neither. -/
namespace BindingModel
open Api

namespace Api.ClassStore
variable {s : ClassStore} {c d x : ClassId}

/-- The class has that interface. -/
def HasInterface (s : ClassStore) (c x : ClassId) : Prop := x ∈ s.interfaces c

theorem derivesFrom_iff_link : s.DerivesFrom c x ↔ s.HasBase c x ∨ s.HasInterface c x := by
  unfold DerivesFrom bases HasBase HasInterface
  rw [List.mem_append, Option.mem_toList]

theorem transGen_derivesFrom_of_base (h : Relation.TransGen s.HasBase c x) :
    Relation.TransGen s.DerivesFrom c x :=
  Relation.TransGen.mono (fun _ _ hb => derivesFrom_iff_link.mpr (.inl hb)) _ _ h

/-- What a class inherits from is reached by its links. -/
theorem transGen_of_inheritsFrom (h : s.inheritsFrom c x = true) :
    Relation.TransGen s.DerivesFrom c x := by
  rcases inheritsFrom_iff.mp h with hbase | hinterface
  · exact transGen_derivesFrom_of_base hbase
  · exact .single (derivesFrom_iff_link.mpr (.inr hinterface))

/-- The interfaces of the class bring all of theirs. -/
def Flattened (s : ClassStore) (d : ClassId) : Prop :=
  ∀ j ∈ s.interfaces d, s.interfaces j ⊆ s.interfaces d

namespace Flattened
variable (h : s.Flattened d)
include h

theorem mem_interfaces_iff : x ∈ s.interfaces d ↔ Relation.TransGen s.HasInterface d x := by
  refine ⟨fun hx => .single hx, fun hpath => ?_⟩
  induction hpath with
  | single hx => exact hx
  | tail _ hx ih => exact h _ ih hx

theorem inheritsFrom_iff_alone : s.inheritsFrom d x = true ↔
    Relation.TransGen s.HasBase d x ∨ Relation.TransGen s.HasInterface d x := by
  rw [inheritsFrom_iff, h.mem_interfaces_iff]

/-- All that links lead to is inherited from if no link leads out of it, and no link but those from
primary bases to interfaces and from interfaces to primary bases can do that. -/
theorem inheritsFrom_all_iff :
    (∀ x, s.inheritsFrom d x = true ↔ Relation.TransGen s.DerivesFrom d x) ↔
      (∀ b, Relation.TransGen s.HasBase d b → ∀ x ∈ s.interfaces b, s.inheritsFrom d x = true) ∧
        ∀ j ∈ s.interfaces d, ∀ b, s.HasBase j b → s.inheritsFrom d b = true := by
  constructor
  · intro hall
    constructor
    · intro b hb x hx
      exact (hall x).mpr
        ((transGen_derivesFrom_of_base hb).tail (derivesFrom_iff_link.mpr (.inr hx)))
    · intro j hj b hb
      exact (hall b).mpr (.tail (.single (derivesFrom_iff_link.mpr (.inr hj)))
        (derivesFrom_iff_link.mpr (.inl hb)))
  · rintro ⟨hbases, hinterfaces⟩ x
    refine ⟨transGen_of_inheritsFrom, fun hpath => ?_⟩
    induction hpath with
    | single hx => exact inheritsFrom_iff.mpr ((derivesFrom_iff_link.mp hx).imp .single id)
    | @tail c x _ hx ih =>
      rcases inheritsFrom_iff.mp ih with hc | hc
      · rcases derivesFrom_iff_link.mp hx with hx | hx
        · exact inheritsFrom_iff.mpr (.inl (hc.tail hx))
        · exact hbases c hc x hx
      · rcases derivesFrom_iff_link.mp hx with hx | hx
        · exact hinterfaces c hc x hx
        · exact inheritsFrom_iff.mpr (.inr (h c hc hx))

end Flattened
end Api.ClassStore

namespace Assembly

/-- The interfaces of a class of a finished model that are no namespaces bring all of theirs. -/
theorem flattened_of_run {env : Env} {db : Database} {classes : List ClassId} {s : State}
    (hrun : run env { db } = .ok classes s) (hacyclic : ¬ Cyclic s.store.DerivesFrom)
    {d : ClassId} (hscopes : ∀ j ∈ s.store.interfaces d,
      (s.store.get j).isNamespace = false ∨ s.store.interfaces j = []) :
    s.store.Flattened d := by
  obtain ⟨t, u, hdeclare, -, hquiet, harranged, -⟩ := run_arranged hrun
  have hpending := ((declareAll_adds env { db } () t hdeclare).pending (Pending.initial db)).quiet
    hquiet
  have hnone : Closed [] u := by
    intro c j hj
    rw [mem_interfaces_iff, (hpending.unlinked c).interfaces] at hj
    exact absurd hj.1 List.not_mem_nil
  have hinitial : Sound env [] u := Sound.initial hpending
  obtain ⟨-, hclosed⟩ := settleAll_closed hinitial hnone
  rw [harranged.derivesFrom] at hacyclic
  intro j hj
  rcases hscopes j hj with hscope | hnone
  · have hentry : (s.store.get j).entry = ((settleAll env u).store.get j).entry :=
      BoundClass.entry_eq_of_head (harranged.head j)
    unfold BoundClass.isNamespace at hscope
    rw [hentry] at hscope
    rw [harranged.store_interfaces] at hj ⊢
    rw [harranged.store_interfaces]
    exact ((hclosed.resolve_right hacyclic) d j hj hscope).2.2
  · rw [hnone]
    exact List.nil_subset _

/-- A class of a finished model inherits from what its primary bases lead to and from its
interfaces. All of that is reached by its links. Where no class is derived from itself, it is what
primary bases alone or interfaces alone lead to, so that nothing is missing exactly if the
interfaces of primary bases and the primary bases of interfaces are among it. -/
theorem inherits_from_links {config : Config} {header : Header} {db : Database} {m : Model}
    (hm : (assemble config header db).result = .ok m) :
    (∀ d x, m.store.inheritsFrom d x = true ↔
      Relation.TransGen m.store.HasBase d x ∨ x ∈ m.store.interfaces d) ∧
    (∀ d x, m.store.inheritsFrom d x = true → Relation.TransGen m.store.DerivesFrom d x) ∧
    (¬ Cyclic m.store.DerivesFrom → ∀ d,
      (∀ j ∈ m.store.interfaces d,
        (m.store.get j).isNamespace = false ∨ m.store.interfaces j = []) →
      (∀ x, m.store.inheritsFrom d x = true ↔
        Relation.TransGen m.store.HasBase d x ∨ Relation.TransGen m.store.HasInterface d x) ∧
      ((∀ x, m.store.inheritsFrom d x = true ↔ Relation.TransGen m.store.DerivesFrom d x) ↔
        (∀ b, Relation.TransGen m.store.HasBase d b →
          ∀ x ∈ m.store.interfaces b, m.store.inheritsFrom d x = true) ∧
        ∀ j ∈ m.store.interfaces d, ∀ b, m.store.HasBase j b →
          m.store.inheritsFrom d b = true)) := by
  obtain ⟨classes, s, hrun, rfl⟩ := assemble_eq_ok.mp hm
  refine ⟨fun _ _ => ClassStore.inheritsFrom_iff, fun _ _ => ClassStore.transGen_of_inheritsFrom,
    fun hacyclic d hscopes => ?_⟩
  have hflat : s.store.Flattened d := flattened_of_run hrun hacyclic hscopes
  exact ⟨fun _ => hflat.inheritsFrom_iff_alone, hflat.inheritsFrom_all_iff⟩

theorem inherits_from_links_circle :
    ∃ m, (assemble {} circleHeader circleRules).result = .ok m ∧
      m.store.inheritsFrom 0 3 = true ∧
      ∀ x, m.store.inheritsFrom 0 x = true ↔ Relation.TransGen m.store.DerivesFrom 0 x := by
  obtain ⟨m, hm, hfacts⟩ := exists_model_of_any (p := fun m =>
    decide (∀ c < m.store.classes.size, ∀ x ∈ m.store.bases c, c < x) &&
    m.store.inheritsFrom 0 3 &&
    (m.store.interfaces 0).all (fun j =>
      !(m.store.get j).isNamespace && (m.store.base? j).all (m.store.inheritsFrom 0)) &&
    (m.store.baseChain 0).all fun b => (m.store.interfaces b).all (m.store.inheritsFrom 0))
    (show (assemble {} circleHeader circleRules).result.toOption.any _ = true by decide +kernel)
  simp only [Bool.and_eq_true, decide_eq_true_eq, List.all_eq_true, Bool.not_eq_true',
    Option.all_eq_true] at hfacts
  obtain ⟨⟨⟨hbelow, hnamed⟩, hinterfaces⟩, hbases⟩ := hfacts
  have hacyclic := not_cyclic_derivesFrom id hbelow
  obtain ⟨-, hall⟩ := (inherits_from_links hm).2.2 hacyclic 0
    fun j hj => .inl (hinterfaces j hj).1
  refine ⟨m, hm, hnamed, hall.mpr ⟨fun b hb x hx => ?_, fun j hj b hb => ?_⟩⟩
  · exact hbases b (ClassStore.mem_baseChain.mpr hb) x hx
  · exact (hinterfaces j hj).2 b hb

/-- A class whose base has an interface. -/
def namedHeader : Header where
  global.classes := [
    { decls := { name := "Named" } },
    { decls := { name := "Shape" }, bases := [{ name := "Named" }] },
    { decls := { name := "Circle" }, bases := [{ name := "Shape" }] }]

def namedRules : Database :=
  let (_, db) := Database.initial.add "Named" (.complex .interface {})
  let (_, db) := db.add "Shape" (.complex .object {})
  (db.add "Circle" (.complex .object {})).2

/-- The base inherits from its interface, but what is derived from it does not. -/
theorem interface_of_base_missing :
    ∃ m, (assemble {} namedHeader namedRules).result = .ok m ∧ 2 ∈ m.classes ∧
      0 ∈ m.interfaces ∧ m.store.inheritsFrom 1 0 = true ∧
      Relation.TransGen m.store.DerivesFrom 2 0 ∧ m.store.inheritsFrom 2 0 = false := by
  obtain ⟨m, hm, hfacts⟩ := exists_model_of_any (p := fun m =>
    m.classes.contains 2 && m.interfaces.contains 0 && m.store.inheritsFrom 1 0 &&
    (m.store.bases 2).contains 1 && (m.store.bases 1).contains 0 &&
    !m.store.inheritsFrom 2 0)
    (show (assemble {} namedHeader namedRules).result.toOption.any _ = true by decide +kernel)
  simp only [Bool.and_eq_true, List.contains_iff_mem, Bool.not_eq_true'] at hfacts
  obtain ⟨⟨⟨⟨⟨hclass, hinterface⟩, hbase⟩, hshape⟩, hnamed⟩, hmissing⟩ := hfacts
  exact ⟨m, hm, hclass, hinterface, hbase, .tail (.single hshape) hnamed, hmissing⟩

end Assembly
end BindingModel
