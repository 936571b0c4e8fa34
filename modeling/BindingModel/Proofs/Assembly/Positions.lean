import BindingModel.Proofs.Api.Occurrences
import BindingModel.Proofs.Assembly.Copies

/-! Parameters of a template stand for arguments of an instance by position, where arguments without
entry have none. -/
namespace BindingModel
open Api

namespace Assembly

theorem args_of_binds {s : State} {c x : ClassId} {l : List TypeExpr} {bindings : List BoundType}
    (h : List.Forall₂ (Binds s c x) l bindings) : ∀ b ∈ bindings, b.args = [] := by
  intro b hb
  obtain ⟨a, -, hab⟩ := Error.exists_of_mem_forall₂ h hb
  cases hab
  rfl

/-- Types of a member taken over: each occurrence of a parameter is replaced by what that stands for,
and no parameter is mentioned that stands for nothing. -/
structure TypesReplaced (entries : List Entry) (types instances : List BoundType) : Prop where
  replaced : List.Forall₂ (BoundType.Replaced entries) types instances
  standing : ∀ t ∈ types, ∀ k, t.Mentions k → ∃ e, BoundType.StandsFor entries k e

theorem TypesReplaced.of_becomes {bindings : List BoundType} {maxDepth : Nat}
    {types instances : List BoundType} (hbindings : ∀ b ∈ bindings, b.args = [])
    (h : List.Forall₂ (BoundType.Becomes bindings maxDepth) types instances) :
    TypesReplaced (bindings.map (·.entry)) types instances := by
  have hreplaced : List.Forall₂ (BoundType.Replaced (bindings.map (·.entry))) types instances :=
    h.imp fun _ _ hbecome => hbecome.replaced hbindings
  refine ⟨hreplaced, fun t ht k hk => ?_⟩
  obtain ⟨u, -, htu⟩ := Error.exists_of_mem_forall₂ hreplaced.flip ht
  exact htu.standsFor hk

/-- In a finished model a class with a template stands for that template with the arguments that its
only base is written with. Its members are those of the template, where the parameter in the k-th
position stands for the k-th of the arguments that have an entry. -/
theorem parameters_bound {config : Config} {header : Header} {db : Database} {m : Model}
    (hm : (assemble config header db).result = .ok m) :
    ∃ t u, declareAll (.make config header) { db } = .ok () t ∧
      fillAll (.make config header) t = .ok () u ∧
      ∀ c x, (m.store.get c).templateBase? = some x → ∃ written entries,
        Instantiates m.store c x written ∧ (m.store.get x).ParamsNumbered ∧
        entries.length = written.args.countP (hasEntry u c x) ∧
        (∀ j a, written.args[j]? = some a → hasEntry u c x a = true →
          ∃ e, entries[(written.args.take j).countP (hasEntry u c x)]? = some e ∧
            Means u c x a.qualifiedName e) ∧
        let own := u.store.get c
        let resolved := (settleAll (.make config header) u).store.get c
        (∀ k, own.functions.length ≤ k → k < resolved.functions.length →
          ∃ g, (m.store.get c).functions[k]? = some g ∧ ∃ f ∈ (m.store.get x).functions,
            g.name = takenName (m.store.get c) f ∧ TypesReplaced entries f.types g.types) ∧
        ∀ k, own.fields.length ≤ k → k < resolved.fields.length →
          ∃ g, (m.store.get c).fields[k]? = some g ∧ ∃ f ∈ (m.store.get x).fields,
            g.name = f.name ∧ TypesReplaced entries [f.type] [g.type] := by
  obtain ⟨t, u, hdeclare, hfill, hparams, hcopies⟩ := copies_of_assemble hm
  refine ⟨t, u, hdeclare, hfill, fun c x hx => ?_⟩
  obtain ⟨written, bindings, hbase, hbinds, hfunctions, hfields⟩ := hcopies c x hx
  have hargs := args_of_binds hbinds
  refine ⟨written, bindings.map (·.entry), hbase, hparams x, ?_, fun j a ha hentry => ?_,
    fun k hk hlt => ?_, fun k hk hlt => ?_⟩
  · rw [List.length_map, ← hbinds.length_eq, List.countP_eq_length_filter]
  · obtain ⟨b, hb, hab⟩ := getElem?_of_binds hbinds ha hentry
    cases hab with
    | intro he => exact ⟨_, by rw [List.getElem?_map, hb]; rfl, he⟩
  · obtain ⟨g, hg, f, hf, hcopy⟩ := hfunctions k hk hlt
    exact ⟨g, hg, f, hf, hcopy.name, .of_becomes hargs hcopy.types⟩
  · obtain ⟨g, hg, f, hf, hcopy⟩ := hfields k hk hlt
    exact ⟨g, hg, f, hf, hcopy.name, .of_becomes hargs (.cons (.substituted hcopy.type) .nil)⟩

def pairRules : Database :=
  let (_, db) := Database.initial.add "int" .primitive
  let (_, db) := db.add "Pair" (.complex .container {})
  (db.add "Box" (.complex .object {})).2

/-- A template of two parameters, each with a function that returns it, and an instance whose first
argument has no entry. -/
def pairHeader : Header where
  global.classes := [
    { decls := { name := "Pair<K, V>", functions := [
        { name := "first", returnType := .ofName "K" },
        { name := "second", returnType := .ofName "V" }] }
      templateParams := ["K", "V"] },
    { decls := { name := "Box" }, bases := [{ name := "Pair<Missing, int>" }] }]

theorem parameters_bound_pair :
    ∃ m g, (assemble {} pairHeader pairRules).result = .ok m ∧
      (m.store.get 1).functions[0]? = some g ∧
      ∃ f ∈ (m.store.get 0).functions, g.name = takenName (m.store.get 1) f ∧
        ∃ entries, TypesReplaced entries f.types g.types := by
  have hlengths : ((fillAll (.make {} pairHeader)).after
      ((declareAll (.make {} pairHeader)).after { db := pairRules }) |> fun u =>
        decide ((u.store.get 1).functions.length ≤ 0 ∧
          0 < ((settleAll (.make {} pairHeader) u).store.get 1).functions.length)) = true := by
    decide +kernel
  obtain ⟨m, hm, hbase⟩ := exists_model_of_any (p := fun m =>
    decide ((m.store.get 1).templateBase? = some 0))
    (show (assemble {} pairHeader pairRules).result.toOption.any _ = true by decide +kernel)
  obtain ⟨t, u, hdeclare, hfill, hmembers⟩ := parameters_bound hm
  rw [Build.after_of_ok hdeclare, Build.after_of_ok hfill] at hlengths
  obtain ⟨hown, htaken⟩ := of_decide_eq_true hlengths
  obtain ⟨written, entries, -, -, -, -, hfunctions, -⟩ := hmembers 1 0 (of_decide_eq_true hbase)
  obtain ⟨g, hg, f, hf, hname, htypes⟩ := hfunctions 0 hown htaken
  exact ⟨m, g, hm, hg, f, hf, hname, entries, htypes⟩

/-- The parameter of an argument without entry stands for the next argument, whose own parameter
stands for nothing. -/
theorem argument_moved_up :
    ∃ m, (assemble {} pairHeader pairRules).result = .ok m ∧
      (∀ e ∈ pairRules.entries, e.localName ≠ "Missing") ∧
      (m.store.get 1).templateBase? = some 0 ∧
      (m.store.get 0).functions.map (fun f => (f.name, f.returnType?.bind (·.entry.ordinal?))) =
        [("first", some 0), ("second", some 1)] ∧
      (m.store.get 1).functions.map (fun f => (f.name, f.returnType?.map (·.entry.name))) =
        [("first", some "int"), ("Box", none)] := by
  obtain ⟨m, hm, hfacts⟩ := exists_model_of_any (p := fun m =>
    decide ((m.store.get 1).templateBase? = some 0) &&
    decide ((m.store.get 0).functions.map
      (fun f => (f.name, f.returnType?.bind (·.entry.ordinal?))) =
        [("first", some 0), ("second", some 1)]) &&
    decide ((m.store.get 1).functions.map
      (fun f => (f.name, f.returnType?.map (·.entry.name))) =
        [("first", some "int"), ("Box", none)]))
    (show (assemble {} pairHeader pairRules).result.toOption.any _ = true by decide +kernel)
  simp only [Bool.and_eq_true, decide_eq_true_eq] at hfacts
  obtain ⟨⟨hbase, htemplate⟩, hclass⟩ := hfacts
  exact ⟨m, hm, by decide +kernel, hbase, htemplate, hclass⟩

end Assembly
end BindingModel
