import BindingModel.Proofs.Assembly.Copies

/-! What a function that returns a parameter of a template returns in an instance: the entry of the
argument with its indirections, but neither its qualifiers nor its own arguments. -/
namespace BindingModel
open Api

namespace Api.BoundType

/-- A use of the entry with nothing but indirections. -/
structure Unqualified (t : BoundType) (e : Entry) (pointers : Nat) : Prop where
  entry : t.entry = e
  isConst : t.isConst = false
  isVolatile : t.isVolatile = false
  pointers : t.pointers = pointers
  ref : t.ref = .none
  args : t.args = []
  element? : t.element? = none
  count? : t.count? = none

/-- The parameter of that ordinal as such. -/
def IsParameter (t : BoundType) (k : Nat) : Prop :=
  ∃ p : Entry, p.ordinal? = some k ∧ t.Unqualified p 0

/-- Of the uses of an entry those with nothing but indirections are equal to each other only. -/
theorem Unqualified.beq_iff {t u : BoundType} {e : Entry} {n : Nat} (ht : t.Unqualified e n)
    (hu : u.entry = e) : (u == t) = true ↔ u.Unqualified e n := by
  obtain ⟨entry, c, v, p, r, args, element?, count?, usage, written, template?⟩ := t
  obtain ⟨entry', c', v', p', r', args', element', count', usage', written', template'⟩ := u
  obtain ⟨rfl, rfl, rfl, rfl, rfl, rfl, rfl, rfl⟩ := ht
  obtain rfl : entry' = entry := hu
  show equal _ _ = true ↔ _
  have hargs : equalList args' [] = true ↔ args' = [] := by
    cases args' <;> simp [equalList]
  have helement : equalOption element' none = true ↔ element' = none := by
    cases element' <;> simp [equalOption]
  simp only [equal, Bool.and_eq_true, beq_iff_eq, hargs, helement, true_and]
  constructor
  · rintro ⟨⟨⟨⟨⟨⟨hc, hv⟩, hp⟩, hr⟩, hargs⟩, helement⟩, hcount⟩
    exact ⟨rfl, hc, hv, hp, hr, hargs, helement, hcount⟩
  · rintro ⟨-, hc, hv, hp, hr, hargs, helement, hcount⟩
    exact ⟨⟨⟨⟨⟨⟨hc, hv⟩, hp⟩, hr⟩, hargs⟩, helement⟩, hcount⟩

/-- A parameter as such becomes what it is bound to, with the indirections of that. -/
theorem unqualified_of_instantiate {bindings : List BoundType} {maxDepth k : Nat}
    {t b r : BoundType} (ht : t.IsParameter k) (hb : bindings[k]? = some b)
    (hentry : b.entry.ordinal? = none) (hargs : b.args = [])
    (hr : instantiate bindings maxDepth t = .ok r) : r.Unqualified b.entry b.pointers := by
  obtain ⟨p, hp, rfl, hconst, hvolatile, hpointers, href, -, helement, hcount⟩ := ht
  unfold instantiate instantiateAt at hr
  rw [hp] at hr
  dsimp only at hr
  rw [hb] at hr
  dsimp only at hr
  split at hr
  · cases hr
  · have hplain : (t.replacePlaceholder b).entry.ordinal? = none := hentry
    have hnone : (t.replacePlaceholder b).args = [] := hargs
    cases maxDepth with
    | zero => cases hr
    | succ n =>
      unfold instantiateAt at hr
      rw [hplain] at hr
      dsimp only at hr
      rw [hnone] at hr
      cases hr
      refine ⟨rfl, hconst, hvolatile, ?_, href, hargs, helement, hcount⟩
      show t.pointers + b.pointers = b.pointers
      rw [hpointers, Nat.zero_add]

end Api.BoundType

namespace Assembly

/-- Where an argument of a class's only base has an entry, a function that was taken over from the
template, where it returns the parameter in the position of that argument, returns that entry with
the indirections of the argument. So it returns what the argument means in the scope of the class
exactly where that has neither qualifiers nor arguments. -/
theorem parameter_returned {config : Config} {header : Header} {db : Database} {m : Model}
    (hm : (assemble config header db).result = .ok m) :
    ∃ t u, declareAll (.make config header) { db } = .ok () t ∧
      fillAll (.make config header) t = .ok () u ∧
      ∀ c x, (m.store.get c).templateBase? = some x → ∃ written,
        Instantiates m.store c x written ∧
        ∀ j a, written.args[j]? = some a → hasEntry u c x a = true → ∃ e,
          Means u c x a.qualifiedName e ∧ (e.ordinal? = none →
            let own := u.store.get c
            let resolved := (settleAll (.make config header) u).store.get c
            ∀ k, own.functions.length ≤ k → k < resolved.functions.length →
              ∃ g, (m.store.get c).functions[k]? = some g ∧ ∃ f ∈ (m.store.get x).functions,
                g.name = takenName (m.store.get c) f ∧ g.kind = f.kind ∧
                ∀ p, f.returnType? = some p →
                  p.IsParameter ((written.args.take j).countP (hasEntry u c x)) →
                  ∃ r, g.returnType? = some r ∧ r.Unqualified e a.pointers ∧
                    ∀ (l : Lookup) path v, l.bindType a (some c) path = .ok v → v.entry = e →
                      ((v == r) = true ↔ v.Unqualified e a.pointers)) := by
  obtain ⟨t, u, hdeclare, hfill, -, hcopies⟩ := copies_of_assemble hm
  refine ⟨t, u, hdeclare, hfill, fun c x hx => ?_⟩
  obtain ⟨written, bindings, hbase, hbinds, hfunctions, -⟩ := hcopies c x hx
  refine ⟨written, hbase, fun j a ha hentry => ?_⟩
  obtain ⟨b, hb, hab⟩ := getElem?_of_binds hbinds ha hentry
  cases hab with
  | @intro e he =>
    refine ⟨e, he, fun hplain k hk hlt => ?_⟩
    obtain ⟨g, hg, f, hf, hcopy⟩ := hfunctions k hk hlt
    refine ⟨g, hg, f, hf, hcopy.name, hcopy.kind, fun p hp hparameter => ?_⟩
    have hreturned := hcopy.returned
    rw [hp] at hreturned
    obtain ⟨r, hr, hreturned⟩ := Error.bind_eq_ok hreturned
    have hunqualified := BoundType.unqualified_of_instantiate hparameter hb hplain rfl hr
    exact ⟨r, (Except.ok.inj hreturned).symm, hunqualified,
      fun l path v _ hv => hunqualified.beq_iff hv⟩

def listRules : Database :=
  let (_, db) := Database.initial.add "int" .primitive
  let (_, db) := db.add "QList" (.complex .container {})
  let (_, db) := db.add "Holder" (.complex .container {})
  (db.add "Box" (.complex .object {})).2

/-- A template with a function that returns its parameter, and an instance with a function that
returns the argument as it is written. -/
def listHeader : Header where
  global.classes := [
    { decls := { name := "Holder<T>", functions := [
        { name := "value", returnType := .ofName "T" }] }
      templateParams := ["T"] },
    { decls := { name := "Box", functions := [
        { name := "copy", returnType := { name := ["QList"], args := [.ofName "int"] } }] }
      bases := [{ name := "Holder<QList<int>>" }] }]

theorem parameter_returned_list :
    ∃ m g r e, (assemble {} listHeader listRules).result = .ok m ∧
      (m.store.get 1).functions[1]? = some g ∧ g.returnType? = some r ∧ r.Unqualified e 0 ∧
      e.name = "QList" := by
  let argument : TypeExpr := { name := ["QList"], args := [.ofName "int"] }
  have hbefore : ((fillAll (.make {} listHeader)).after
      ((declareAll (.make {} listHeader)).after { db := listRules }) |> fun u =>
        decide ((u.store.get 1).functions.length ≤ 1) &&
        decide (1 < ((settleAll (.make {} listHeader) u).store.get 1).functions.length) &&
        (argumentEntry u 1 0 "QList").1.any fun (e : Entry) =>
          decide (e.ordinal? = none) && decide (e.name = "QList")) = true := by decide +kernel
  obtain ⟨m, hm, hfacts⟩ := exists_model_of_any (p := fun m =>
    decide ((m.store.get 1).templateBase? = some 0) &&
    decide (templateName? (m.store.get 1) = some "Holder<QList<int>>") &&
    decide ((m.store.get 1).qualifiedName = "Box") &&
    (m.store.get 0).functions.all fun (f : Function) => f.returnType?.any fun (p : BoundType) =>
      decide (p.entry.ordinal? = some 0) && !p.isConst && !p.isVolatile && decide (p.pointers = 0) &&
      decide (p.ref = .none) && p.args.isEmpty && p.element?.isNone && p.count?.isNone)
    (show (assemble {} listHeader listRules).result.toOption.any _ = true by decide +kernel)
  obtain ⟨t, u, hdeclare, hfill, hreturned⟩ := parameter_returned hm
  rw [Build.after_of_ok hdeclare, Build.after_of_ok hfill] at hbefore
  simp only [Bool.and_eq_true, decide_eq_true_eq, Option.any_eq_true, List.all_eq_true,
    Bool.not_eq_true', Option.isNone_iff_eq_none, List.isEmpty_iff] at hbefore hfacts
  obtain ⟨⟨hown, htaken⟩, e, hfound, hplain, hname⟩ := hbefore
  obtain ⟨⟨⟨hlink, hbase⟩, hclass⟩, hparameters⟩ := hfacts
  obtain ⟨written, ⟨⟨name, hbase', n, hn, hparse⟩, -⟩, harguments⟩ := hreturned 1 0 hlink
  have hargs : written.args = [argument] := by
    obtain rfl := Option.some.inj (hbase.symm.trans hbase')
    rw [hclass] at hn
    have hnames : State.templateNames "Box" "Holder<QList<int>>" = ["Holder<QList<int>>"] := by
      decide +kernel
    rw [hnames] at hn
    obtain rfl := List.mem_singleton.mp hn
    have hwritten : (TypeExpr.parse "Holder<QList<int>>").toOption.map (·.args) =
        some [argument] := by decide +kernel
    rw [hparse] at hwritten
    exact Option.some.inj hwritten
  have hsome : hasEntry u 1 0 argument = true := by
    show (argumentEntry u 1 0 "QList").1.isSome = true
    rw [hfound]
    rfl
  obtain ⟨e', hmeans, hcopies⟩ := harguments 0 argument (by rw [hargs]; rfl) hsome
  obtain rfl : e' = e := by
    cases hmeans with
    | found he => exact Option.some.inj (he.symm.trans hfound)
    | number hnumber => exact absurd hnumber (by decide +kernel)
  obtain ⟨g, hg, f, hf, -, -, hinstance⟩ := hcopies hplain 1 hown htaken
  obtain ⟨p, hp, ⟨⟨⟨⟨⟨⟨hordinal, hconst⟩, hvolatile⟩, hpointers⟩, href⟩, hnone⟩, helement⟩, hcount⟩ :=
    hparameters f hf
  have hparameter : p.IsParameter 0 :=
    ⟨p.entry, hordinal, rfl, hconst, hvolatile, hpointers, href, hnone, helement, hcount⟩
  obtain ⟨r, hr, hunqualified, -⟩ := hinstance p hp hparameter
  exact ⟨m, g, r, e', hm, hg, hr, hunqualified, hname⟩

/-- The argument as it is written is another type than what stands for it. -/
theorem arguments_dropped :
    ∃ m, (assemble {} listHeader listRules).result = .ok m ∧
      (m.store.get 1).templateBase? = some 0 ∧
      (m.store.get 1).baseNames = ["Holder<QList<int>>"] ∧
      (m.store.get 0).functions.map (fun f => (f.name, f.returnType?.bind (·.entry.ordinal?))) =
        [("value", some 0)] ∧
      (m.store.get 1).functions.map (fun f => (f.name, f.returnType?.map (·.signature))) =
        [("copy", some "QList<int>"), ("value", some "QList"), ("Box", none)] := by
  obtain ⟨m, hm, hfacts⟩ := exists_model_of_any (p := fun m =>
    decide ((m.store.get 1).templateBase? = some 0) &&
    decide ((m.store.get 1).baseNames = ["Holder<QList<int>>"]) &&
    decide ((m.store.get 0).functions.map
      (fun f => (f.name, f.returnType?.bind (·.entry.ordinal?))) = [("value", some 0)]) &&
    decide ((m.store.get 1).functions.map (fun f => (f.name, f.returnType?.map (·.signature))) =
      [("copy", some "QList<int>"), ("value", some "QList"), ("Box", none)]))
    (show (assemble {} listHeader listRules).result.toOption.any _ = true by decide +kernel)
  simp only [Bool.and_eq_true, decide_eq_true_eq] at hfacts
  obtain ⟨⟨⟨hlink, hbase⟩, htemplate⟩, hclass⟩ := hfacts
  exact ⟨m, hm, hlink, hbase, htemplate, hclass⟩

end Assembly
end BindingModel
