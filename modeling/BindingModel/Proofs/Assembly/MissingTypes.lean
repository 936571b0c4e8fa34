import BindingModel.Proofs.Assembly.Failure
import BindingModel.Proofs.Lookup.Qualifiers
import BindingModel.Proofs.Rule.Candidates

/-! What is reported when a type of an added function is missing: the outermost name of the first type
that cannot be bound, whichever part of that type is unknown, and the names it may be mistaken for. -/
namespace BindingModel.Assembly
open Api Header

theorem Refusal.name_not_bound {env : Env} {s : State} (r : Refusal env s)
    (hparams : r.type.params? = none) (hargs : r.type.args = [])
    (hlimit : r.type.dims = [] ∨ ∀ k, r.cause ≠ .recursionLimit k) (b : BoundType) :
    r.draft.bindType { name := r.type.name } ≠ .ok b := by
  obtain ⟨-, -, -, -, hcause⟩ := r.unbound
  exact Lookup.name_not_bound hcause hparams hargs hlimit b

/-- An assembly that fails for a missing type names the first type of an added function that cannot be
bound. By itself this name cannot be bound either, when it is written without template arguments, is
not that of a function pointer and no limit is reported for an array. The candidates are the
registered names that end in it, sorted and each once. -/
theorem missing_type_reported {config : Config} {header : Header} {db : Database}
    {name scope missing : String} {candidates : List String}
    (h : (assemble config header db).result =
      .error (.addedFunction name scope (.typeNotFound missing candidates))) :
    ∃ s, run (.make config header) { db } =
        .error (.addedFunction name scope (.typeNotFound missing candidates)) s ∧
      ∃ r : Refusal (.make config header) s, AddedBy db s r.added scope ∧
        r.added.name = name ∧ s.scopeName r.class? = scope ∧ r.type.qualifiedName = missing ∧
        db.entries <+: s.db.entries ∧ candidates.Pairwise (· < ·) ∧
        (∀ n, n ∈ candidates ↔ (∃ e ∈ s.db.entries, e.name = n) ∧
          ∃ outer, n = outer ++ "::" ++ r.type.localName) ∧
        (r.type.params? = none → r.type.args = [] →
          r.type.dims = [] ∨ (∀ k, r.cause ≠ .recursionLimit k) →
            ∀ b, r.draft.bindType { name := r.type.name } ≠ .ok b) := by
  obtain ⟨s, hrun⟩ := assemble_eq_error.mp h
  obtain ⟨hs, ⟨r, he⟩ | hcycle⟩ := (run_refused _ _).of_error hrun
  · injection he with hname hscope hsource
    injection hsource with hmissing hcandidates
    subst hname hscope hmissing hcandidates
    exact ⟨s, hrun, r, addedBy_of_addedTo hs r.addedTo, rfl, rfl, rfl, hs.db.entries_prefix,
      Database.pairwise_candidates _ _, fun n => Database.mem_candidates_iff, r.name_not_bound⟩
  · obtain ⟨_, _, _, _, hcycle⟩ := hcycle
    cases hcycle

/-- The function, its scope, the name and the candidates, where a type is missing. -/
def missingType? : Except Error Model → Option (String × String × String × List String)
  | .error (.addedFunction name scope (.typeNotFound missing candidates)) =>
    some (name, scope, missing, candidates)
  | _ => none

theorem eq_error_of_missingType? {x : Except Error Model} {name scope missing : String}
    {candidates : List String} (h : missingType? x = some (name, scope, missing, candidates)) :
    x = .error (.addedFunction name scope (.typeNotFound missing candidates)) := by
  unfold missingType? at h
  split at h
  · cases h
    rfl
  · cases h

/-- Rules for a container and for two classes, one of them with an added function. -/
def takingRules (type : TypeExpr) : Database :=
  let take : AddedFunction := {
    name := "take"
    args := [{ name := "x", type, default? := none }]
    returnType := .ofName "void"
    isConst := false }
  let (_, db) := Database.initial.add "List" (.complex .container {})
  let (_, db) := db.add "Shop" (.complex .namespaceScope {})
  let (_, db) := db.add "Shop::Item" (.complex .value {})
  (db.add "Box" (.complex .object { added := [take] })).2

def takingHeader : Header where
  global.classes := [{ decls := { name := "Box" } }]

theorem missing_type_reported_item :
    let item : TypeExpr := { name := ["Item"], pointers := 1 }
    (assemble {} takingHeader (takingRules item)).result =
        .error (.addedFunction "take" "Box" (.typeNotFound "Item" ["Shop::Item"])) ∧
      ∃ s, ∃ r : Refusal (.make {} takingHeader) s, AddedBy (takingRules item) s r.added "Box" ∧
        r.type = item ∧ (∀ n, n ∈ ["Shop::Item"] ↔ (∃ e ∈ s.db.entries, e.name = n) ∧
          ∃ outer, n = outer ++ "::" ++ "Item") ∧
        ∀ b, r.draft.bindType (.ofName "Item") ≠ .ok b := by
  intro item
  have hres : (assemble {} takingHeader (takingRules item)).result =
      .error (.addedFunction "take" "Box" (.typeNotFound "Item" ["Shop::Item"])) :=
    eq_error_of_missingType? (by decide +kernel)
  obtain ⟨s, -, r, hadded, -, -, -, -, -, hcandidates, hname⟩ := missing_type_reported hres
  -- The rules add no function that takes anything else.
  have hclasses : ∀ e ∈ (takingRules item).entries, ∀ a ∈ e.added, a.boundTypes = [item] := by
    decide +kernel
  have htypedefs : (takingRules item).typedefs = [] := rfl
  have hglobal : (takingRules item).globalAdded = [] := rfl
  have htypes : r.added.boundTypes = [item] := by
    generalize "Box" = scope at hadded
    cases hadded with
    | toClass i hi hd ha =>
      rcases hd with he | ⟨t, ht, -⟩
      · exact hclasses _ he _ ha
      · rw [htypedefs] at ht
        cases ht
    | globally ha =>
      rw [hglobal] at ha
      cases ha
  have htype : r.type = item := by
    have hmem := r.unbound.mem
    rwa [htypes, List.mem_singleton] at hmem
  rw [htype] at hcandidates hname
  exact ⟨hres, s, r, hadded, htype, hcandidates, hname rfl rfl (.inl rfl)⟩

/-- The name that is reported for an unknown template argument is that of the known template. -/
theorem known_template_reported :
    let list : TypeExpr := { name := ["List"], args := [.ofName "Item"] }
    let env : Env := .make {} takingHeader
    (assemble {} takingHeader (takingRules list)).result =
        .error (.addedFunction "take" "Box" (.typeNotFound "List" [])) ∧
      let s := Build.after (run env) { db := takingRules list }
      let d : Draft := ⟨s.lookup env, ["Box"], some 0⟩
      s.scopeName (some 0) = "Box" ∧
        (d.bindType (.ofName "List")).toOption.map (·.entry.name) = some "List" ∧
        (d.bindType (.ofName "Item")).toOption.isNone = true := by
  intro list env
  have hres : (assemble {} takingHeader (takingRules list)).result =
      .error (.addedFunction "take" "Box" (.typeNotFound "List" [])) :=
    eq_error_of_missingType? (by decide +kernel)
  exact ⟨hres, by decide +kernel, by decide +kernel, by decide +kernel⟩

end BindingModel.Assembly
