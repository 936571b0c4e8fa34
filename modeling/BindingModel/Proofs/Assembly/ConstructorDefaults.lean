import BindingModel.Assembly.DefaultValue
import BindingModel.Proofs.Assembly.Outcome
import BindingModel.Proofs.Text.Cut
import Mathlib.Data.List.TakeWhile

/-! Default expressions of types that are constructed: which scopes are put into them, and when what
follows the closing parenthesis is lost. -/
namespace BindingModel.Assembly
open Api Text Header

/-- The default of such a type is none of a number, an enumerator or a container's instance. -/
structure IsConstructed (type : BoundType) (expression : String) : Prop where
  primitive : type.entry.isKind .primitive = true → type.pointers ≠ 0
  enumeration : type.entry.isKind .enumeration = false
  flags : type.entry.isKind .flags = false
  container : type.usage = .container → '<' ∉ expression.toList

/-- A text read as a call: up to the first opening parenthesis, then up to the first closing one
after that, and what follows. Without an opening parenthesis the value is all up to a closing one. -/
structure ReadsAs (s front value back rest : List Char) : Prop where
  text : s = front ++ value ++ back ++ rest
  front : front = [] ∧ '(' ∉ s ∨ ∃ callee, front = callee ++ ['('] ∧ '(' ∉ callee
  value : ')' ∉ value
  back : back = [')'] ∨ back = [] ∧ rest = []

/-- A field of the class has exactly this name. -/
def NamesField (class? : Option BoundClass) (value : List Char) : Prop :=
  ∃ c, class? = some c ∧ ∃ f ∈ c.fields, f.name = .ofList value

/-- The scope of the type, if the call is one of its constructor. -/
def calleeScope (type : BoundType) (front : List Char) : List Char :=
  match scopedType? type.signature.toList with
  | some (scope, name) => if front = name ++ ['('] then scope else []
  | none => []

theorem exists_closed (s : List Char) : ∃ value back rest,
    (s.takeWhile (· ≠ ')'), if s.contains ')' then [')'] else []) = (value, back) ∧
      s = value ++ back ++ rest ∧ ')' ∉ value ∧ (back = [')'] ∨ back = [] ∧ rest = []) := by
  by_cases hclosed : ')' ∈ s
  · obtain ⟨value, rest, rfl, hvalue⟩ := List.eq_append_cons_of_mem hclosed
    refine ⟨value, [')'], rest, ?_, by simp, hvalue, .inl rfl⟩
    have hall : ∀ c ∈ value, decide (c ≠ ')') = true := fun c hc =>
      decide_eq_true fun heq => hvalue (heq ▸ hc)
    rw [List.takeWhile_append_of_pos hall]
    simp
  · refine ⟨s, [], [], ?_, by simp, hclosed, .inr ⟨rfl, rfl⟩⟩
    have hall : ∀ c ∈ s, decide (c ≠ ')') = true := fun c hc =>
      decide_eq_true fun heq => hclosed (heq ▸ hc)
    rw [List.takeWhile_eq_self_iff.mpr hall]
    simp [hclosed]

theorem readsAs_callParts (s : List Char) : ∃ front value back rest,
    callParts s = (front, value, back) ∧ ReadsAs s front value back rest := by
  unfold callParts
  cases hcut : cutFirst? ['('] s with
  | none =>
    obtain ⟨value, back, rest, hparts, hs, hvalue, hback⟩ := exists_closed s
    exact ⟨[], value, back, rest, congrArg (([] : List Char), ·) hparts, hs,
      .inl ⟨rfl, cutFirst?_eq_none_iff.mp hcut⟩, hvalue, hback⟩
  | some cut =>
    obtain ⟨callee, inside⟩ := cut
    obtain ⟨rfl, hcallee⟩ := cutFirst?_eq_some_iff.mp hcut
    obtain ⟨value, back, rest, hparts, hs, hvalue, hback⟩ := exists_closed inside
    refine ⟨callee ++ ['('], value, back, rest, congrArg (callee ++ ['('], ·) hparts, ?_,
      .inr ⟨callee, rfl, hcallee⟩, hvalue, hback⟩
    rw [hs]
    simp

/-- A scope that a type is in ends with its `::`. -/
theorem scope_of_scopedType? {s scope name : List Char}
    (h : scopedType? s = some (scope, name)) :
    name ≠ [] ∧ ∃ outer, scope = outer ++ [':', ':'] := by
  unfold scopedType? at h
  extract_lets word isPart text endsWell at h
  split at h
  · split at h
    · obtain ⟨rfl, rfl⟩ := Prod.mk.inj (Option.some.inj h)
      exact ⟨List.cons_ne_nil _ _, _, rfl⟩
    · cases h
  · cases h

theorem calleeScope_eq (type : BoundType) (front : List Char) :
    calleeScope type front = [] ∨ ∃ outer, calleeScope type front = outer ++ [':', ':'] := by
  unfold calleeScope
  split
  · next hparts =>
    split
    · exact .inr (scope_of_scopedType? hparts).2
    · exact .inl rfl
  · exact .inl rfl

theorem ReadsAs.callee_eq_iff {s front value back rest name : List Char}
    (h : ReadsAs s front value back rest) (hname : name ≠ []) :
    front.filter (· ≠ '(') = name ↔ front = name ++ ['('] := by
  rcases h.front with ⟨rfl, -⟩ | ⟨callee, rfl, hcallee⟩
  · simpa using hname.symm
  · have hself : callee.filter (· ≠ '(') = callee := List.filter_eq_self.mpr fun c hc =>
      decide_eq_true fun heq => hcallee (heq ▸ hc)
    rw [List.filter_append, hself]
    simp

theorem namesField_iff {c : BoundClass} {value : List Char} :
    NamesField (some c) value ↔ c.fields.any (·.name == .ofList value) = true := by
  simp [NamesField]

/-- The scope of the type goes to the front, unless the value is a field: then only the name of the
class is put before it, and what follows the closing parenthesis is left out. -/
theorem toList_fixConstructorDefault (expression : String) (type : BoundType)
    (class? : Option BoundClass) : ∃ front value back rest,
      ReadsAs expression.toList front value back rest ∧
      (¬ NamesField class? value → (fixConstructorDefault expression type class?).toList =
        calleeScope type front ++ expression.toList) ∧
      (∀ c, class? = some c → NamesField class? value →
        (fixConstructorDefault expression type class?).toList =
          front ++ (c.name.toList ++ [':', ':'] ++ value ++ back)) := by
  obtain ⟨front, value, back, rest, hparts, hread⟩ := readsAs_callParts expression.toList
  have hscope : (match scopedType? type.signature.toList with
      | some (scope, name) =>
        if front.filter (· ≠ '(') = name then String.ofList scope ++ expression else expression
      | none => expression).toList = calleeScope type front ++ expression.toList := by
    unfold calleeScope
    split
    · next scope name htype =>
      simp only [hread.callee_eq_iff (scope_of_scopedType? htype).1]
      split <;> simp
    · rfl
  refine ⟨front, value, back, rest, hread, fun hnone => ?_, ?_⟩
  · unfold fixConstructorDefault
    rw [hparts]
    cases class? with
    | none => exact hscope
    | some c =>
      dsimp only
      rw [if_neg (mt namesField_iff.mpr hnone)]
      exact hscope
  · rintro c rfl hfield
    unfold fixConstructorDefault
    rw [hparts]
    dsimp only
    rw [if_pos (namesField_iff.mp hfield)]
    simp

theorem fixDefault_eq {expression : String} {type : BoundType} (class? : Option BoundClass)
    (htype : IsConstructed type (trim expression)) :
    fixDefault expression type class? = fixConstructorDefault (trim expression) type class? := by
  unfold fixDefault
  dsimp only
  rw [if_neg, if_neg, if_neg]
  · rintro ⟨husage, hangle⟩
    exact htype.container husage (by simpa using hangle)
  · simp [htype.enumeration, htype.flags]
  · simpa using htype.primitive

/-- What follows the only closing parenthesis is no part of a text that ends with it. -/
theorem sublist_closed_iff {value rest before : List Char} {c : Char} (hbefore : c ∉ before)
    (hvalue : value.Sublist before) :
    (value ++ c :: rest).Sublist (before ++ [c]) ↔ rest = [] := by
  constructor
  · intro h
    obtain ⟨front, back, heq, hfront, hback⟩ := List.sublist_append_iff.mp h
    have hfront : c ∉ front := fun hmem => hbefore (hfront.subset hmem)
    obtain rfl | ⟨first, last, rfl⟩ := rest.eq_nil_or_concat'
    · rfl
    · rcases List.sublist_singleton.mp hback with rfl | rfl
      · rw [List.append_nil] at heq
        exact absurd (heq ▸ by simp) hfront
      · have hends : (value ++ c :: first) ++ [last] = front ++ [c] := by simpa using heq
        have hfirst : value ++ c :: first = front := (List.append_inj' hends rfl).1
        exact absurd (hfirst ▸ by simp) hfront
  · rintro rfl
    exact hvalue.append_right [c]

/-- The default of a constructed type is kept as a whole, with the scope of the type in front where
the call needs it, unless its first value is a field of the class: then the field gets the name of
the class and the expression ends with the parenthesis that closes it. -/
theorem default_kept_iff (expression : String) {type : BoundType} (class? : Option BoundClass)
    (htype : IsConstructed type (trim expression)) :
    let written := (trim expression).toList
    let fixed := (fixDefault expression type class?).toList
    ∃ front value back rest, ReadsAs written front value back rest ∧
      (calleeScope type front = [] ∨ ∃ outer, calleeScope type front = outer ++ [':', ':']) ∧
      (¬ NamesField class? value → fixed = calleeScope type front ++ written) ∧
      (∀ c, class? = some c → NamesField class? value →
        fixed = front ++ (c.name.toList ++ [':', ':'] ++ value ++ back)) ∧
      ((∀ c, class? = some c → ')' ∉ c.name.toList) →
        (written.Sublist fixed ↔ NamesField class? value → rest = [])) := by
  intro written fixed
  obtain ⟨front, value, back, rest, hread, hplain, hfield⟩ :=
    toList_fixConstructorDefault (trim expression) type class?
  rw [← fixDefault_eq class? htype] at hplain hfield
  refine ⟨front, value, back, rest, hread, calleeScope_eq type front, hplain, hfield, fun hname => ?_⟩
  by_cases hnames : NamesField class? value
  · obtain ⟨c, hc, _⟩ := id hnames
    have hbefore : ')' ∉ c.name.toList ++ [':', ':'] ++ value := by
      simp [hname c hc, hread.value]
    have hvalue : value.Sublist (c.name.toList ++ [':', ':'] ++ value) :=
      List.sublist_append_right _ _
    rw [show fixed = _ from hfield c hc hnames, show written = _ from hread.text,
      imp_iff_right hnames, List.append_assoc, List.append_assoc,
      List.append_sublist_append_left]
    rcases hread.back with rfl | ⟨rfl, rfl⟩
    · exact sublist_closed_iff hbefore hvalue
    · simpa using hvalue
  · rw [show fixed = _ from hplain hnames]
    exact iff_of_true (List.sublist_append_right _ _) fun h => absurd h hnames

def colorType : BoundType where
  entry := ⟨none, "Gui::Color", .complex .value {}⟩
  usage := .value

theorem default_kept_iff_darker :
    (trim " Color(3).darker()").toList.Sublist
      (fixDefault " Color(3).darker()" colorType none).toList := by
  have htype : IsConstructed colorType (trim " Color(3).darker()") :=
    ⟨by decide, by decide, by decide, by decide⟩
  obtain ⟨front, value, back, rest, -, -, -, -, hkept⟩ :=
    default_kept_iff " Color(3).darker()" none htype
  refine (hkept fun c hc => ?_).mpr fun hfield => ?_
  · cases hc
  · obtain ⟨c, hc, -⟩ := hfield
    cases hc

/-- A class with a field and a function whose default calls a method on what it makes of that. -/
def paletteRules : Database :=
  let (_, db) := Database.initial.add "int" .primitive
  let (_, db) := db.add "Color" (.complex .value {})
  let (_, db) := db.add "Palette" (.complex .value {})
  db

def paletteHeader : Header where
  global.classes := [
    { decls := { name := "Color" } },
    { decls := {
        name := "Palette"
        vars := [{ name := "base", type := .ofName "int" }]
        functions := [{
          name := "paint"
          args := [{
            name := "color"
            type := { TypeExpr.ofName "Color" with isConst := true, ref := .lvalue }
            default? := some "Color(base).darker()" }] }] } }]

/-- The call of the method is lost. -/
theorem darker_lost :
    (∃ m, (assemble .minimal paletteHeader paletteRules).result = .ok m ∧ ∃ c ∈ m.classes,
      (m.store.get c).qualifiedName = "Palette" ∧
      (m.store.get c).functions.map (fun f => (f.signature, f.args.map (·.default?))) =
        [("paint(const Color&)", [some "Color(Palette::base)"])]) ∧
    ¬ "Color(base).darker()".toList.Sublist "Color(Palette::base)".toList := by
  refine ⟨?_, by decide⟩
  obtain ⟨m, hm, hpalette⟩ := exists_model_of_any (p := fun m => m.classes.any fun c =>
    decide ((m.store.get c).qualifiedName = "Palette") &&
    decide ((m.store.get c).functions.map (fun f => (f.signature, f.args.map (·.default?))) =
      [("paint(const Color&)", [some "Color(Palette::base)"])]))
    (show (assemble .minimal paletteHeader paletteRules).result.toOption.any _ = true by
      decide +kernel)
  simp only [List.any_eq_true, Bool.and_eq_true, decide_eq_true_eq] at hpalette
  exact ⟨m, hm, hpalette⟩

end BindingModel.Assembly
