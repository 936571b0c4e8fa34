import BindingModel.Proofs.Lookup.Arrays
import BindingModel.Proofs.Lookup.Spelling
import BindingModel.Proofs.Text.Integer

/-! The dimensions of an array: the arrays that a type is bound to have the counts that are written,
the outermost one first, and their signature spells them the other way round. -/
namespace BindingModel
open Signature

namespace TypeExpr
variable {ds es : List String}

theorem text_append_dims (t : TypeExpr) :
    t.text = ({ t with dims := [] } : TypeExpr).text ++ dimsText t.dims := by
  cases t
  simp [text, dimsText, String.append_assoc]

theorem dimsText_cons (d : String) (ds : List String) :
    dimsText (d :: ds) = "[" ++ d ++ "]" ++ dimsText ds := by
  unfold dimsText
  rw [List.map_cons, String.join_cons]

theorem not_isNameChar_head_dimsText (ds : List String) :
    (dimsText ds).toList.head?.any Text.isNameChar = false := by
  cases ds with
  | nil => rfl
  | cons d ds =>
    have hopen : Text.isNameChar '[' = false := by decide
    rw [dimsText_cons]
    simp [hopen]

theorem pieces_dimsText_cons {d : String} (hd : IsRun d.toList) (ds : List String) :
    pieces (dimsText (d :: ds)).toList =
      ['['] :: d.toList :: [']'] :: pieces (dimsText ds).toList := by
  have hopen : Text.isNameChar '[' = false ∧ Text.isBlank '[' = false := by decide
  have hclose : Text.isNameChar ']' = false ∧ Text.isBlank ']' = false := by decide
  have hlist : (dimsText (d :: ds)).toList =
      '[' :: (d.toList ++ ']' :: (dimsText ds).toList) := by
    rw [dimsText_cons]
    simp
  rw [hlist, pieces_mark hopen.1 hopen.2, pieces_run hd (by simp [hclose]),
    pieces_mark hclose.1 hclose.2]

/-- Different dimensions, each a single word, are spelled with different pieces. -/
theorem dims_eq_of_pieces (hds : ∀ d ∈ ds, IsRun d.toList) (hes : ∀ e ∈ es, IsRun e.toList)
    (h : pieces (dimsText ds).toList = pieces (dimsText es).toList) : ds = es := by
  induction ds generalizing es with
  | nil =>
    cases es with
    | nil => rfl
    | cons e es =>
      rw [pieces_dimsText_cons (hes e List.mem_cons_self)] at h
      cases h
  | cons d ds ih =>
    obtain ⟨hd, hds⟩ := List.forall_mem_cons.mp hds
    rw [pieces_dimsText_cons hd] at h
    cases es with
    | nil => cases h
    | cons e es =>
      obtain ⟨he, hes⟩ := List.forall_mem_cons.mp hes
      rw [pieces_dimsText_cons he] at h
      simp only [List.cons.injEq, true_and] at h
      rw [String.toList_inj.mp h.1, ih hds hes h.2]

end TypeExpr

namespace Api.BoundType
variable {x b : BoundType} {cs : List (Option Int)}

/-- The counts are spelled from the inside out. -/
theorem Nested.signature_eq (h : Nested x cs b) :
    b.signature = x.signature ++ String.join (cs.map countText).reverse := by
  induction h with
  | nil => simp
  | @cons counts inner count? written _ ih =>
    have houter : (decided { arrayOf (.arrayOf inner.entry) inner count? with written }).signature =
        inner.signature ++ countText count? := by
      simp [decided, arrayOf, BoundType.signature, TypeExpr.cvText]
    rw [houter, ih, List.map_cons, List.reverse_cons, String.join_append, String.join_cons,
      String.join_nil, String.append_empty, String.append_assoc]

end Api.BoundType

namespace Lookup
open Api BoundType
variable {l : Lookup} {class? : Option ClassId} {scope : List String} {t : TypeExpr}
  {x b : BoundType} {n : Nat}

/-! ### Counts from the outside in -/

theorem bindAt_array_of_ok (hdims : t.dims ≠ []) (hparams : t.params? = none)
    (hx : l.bindAt class? scope n (elementOf t) = .ok x) :
    ∃ b, l.bindAt class? scope (n + 1) t = .ok b ∧ Nested x (l.countsOf t) b := by
  have hwritten : l.bindWritten (l.bindAt class? scope n) class? t = _ :=
    bindWritten_array hparams hdims
  rw [hx] at hwritten
  refine ⟨_, bindAt_of_bindWritten hwritten, ?_⟩
  obtain ⟨y, hy, hnested⟩ := nested_of_bindWritten hdims hwritten
  obtain rfl := Except.ok.inj (hx.symm.trans hy)
  exact hnested

theorem bindAt_array_of_limit {k : Nat} (hdims : t.dims ≠ []) (hparams : t.params? = none)
    (hx : l.bindAt class? scope n (elementOf t) = .error (.recursionLimit k)) :
    l.bindAt class? scope (n + 1) t = .error (.recursionLimit k) := by
  have hwritten : l.bindWritten (l.bindAt class? scope n) class? t = _ :=
    bindWritten_array hparams hdims
  rw [hx] at hwritten
  unfold bindAt
  rw [hwritten]
  rfl

/-- A type with dimensions is bound to arrays around what its element is bound to, one for each
dimension and the first outermost, unless the element needs the last level of nesting itself.
Constant characters in one dimension are bound to a pointer instead, whether the dimension has a size
or not. -/
theorem arrays_bound {l : Lookup} {class? : Option ClassId} {scope : List String} {t : TypeExpr}
    {x : BoundType} (hdims : t.dims ≠ []) (hparams : t.params? = none)
    (hx : l.bindType { t with dims := [], pointers := if isString t then 1 else t.pointers }
      class? scope = .ok x) :
    ((∃ b, l.bindType t class? scope = .ok b ∧
        Nested x (if isString t then [] else t.dims.map l.countOf?) b) ∨
      ∃ k, l.bindAt class? scope l.maxTemplateDepth (elementOf t) = .error (.recursionLimit k) ∧
        l.bindType t class? scope = .error (.recursionLimit k)) ∧
    (isString t = true ↔ t.dims.length = 1 ∧ t.isConst = true ∧ t.pointers = 0 ∧
      t.ref = .none ∧ t.name = ["char"]) := by
  refine ⟨?_, isString_iff⟩
  have hlimited := bindAt_limited l class? scope (Nat.le_succ l.maxTemplateDepth) (elementOf t)
  have hfull : l.bindAt class? scope (l.maxTemplateDepth + 1) (elementOf t) = .ok x := hx
  rw [hfull] at hlimited
  rcases hlimited.ok_or_limit with hok | ⟨k, hlimit⟩
  · exact .inl (bindAt_array_of_ok hdims hparams hok)
  · exact .inr ⟨k, hlimit, bindAt_array_of_limit hdims hparams hlimit⟩

/-- Knows `int`, `char` and the enumerator `Size`. -/
def sizeLookup : Lookup where
  db := {
    entries := [⟨some 0, "int", .primitive⟩, ⟨some 1, "char", .primitive⟩,
      ⟨some 2, "Size", .enumValue "8" none⟩] }

/-- `int[3][][Size]`. -/
theorem arrays_bound_size :
    let t : TypeExpr := { name := ["int"], dims := ["3", "", "Size"] }
    ∃ x b, t.dims ≠ [] ∧ t.params? = none ∧
      sizeLookup.bindType { t with dims := [] } none [] = .ok x ∧
      sizeLookup.bindType t none [] = .ok b ∧ Nested x [some 3, none, some 8] b := by
  intro t
  obtain ⟨x, hx, -⟩ : ∃ x, sizeLookup.bindType { t with dims := [] } none [] = .ok x ∧
      (x.pointers == 0) = true := Error.exists_ok_of_any (by decide +kernel)
  obtain ⟨c, hc, -⟩ : ∃ b, sizeLookup.bindType t none [] = .ok b ∧ (b.count? == some 3) = true :=
    Error.exists_ok_of_any (by decide +kernel)
  have hcounts : t.dims.map sizeLookup.countOf? = [some 3, none, some 8] := by decide +kernel
  obtain ⟨⟨b, hb, hnested⟩ | ⟨k, -, hlimit⟩, -⟩ :=
    arrays_bound (l := sizeLookup) (t := t) (by decide) rfl hx
  · exact ⟨x, b, by decide, rfl, hx, hb, hcounts ▸ hnested⟩
  · rw [hc] at hlimit
    cases hlimit

/-- `const char[16]` is no array of 16 characters, but a pointer. -/
theorem sized_characters_bound_to_pointer :
    let t : TypeExpr := { name := ["char"], isConst := true, dims := ["16"] }
    ∃ b, sizeLookup.bindType t none [] = .ok b ∧ b.element?.isNone = true ∧ b.pointers = 1 := by
  intro t
  obtain ⟨b, hb, hparts⟩ : ∃ b, sizeLookup.bindType t none [] = .ok b ∧
      (b.element?.isNone && b.pointers == 1) = true := Error.exists_ok_of_any (by decide +kernel)
  rw [Bool.and_eq_true, beq_iff_eq] at hparts
  exact ⟨b, hb, hparts⟩

/-! ### Signatures -/

theorem value?_of_readInteger? (l : Lookup) {s : String} {v : Int}
    (h : Text.readInteger? (Text.trim s) = some v) : l.value? s = some v := by
  unfold value?
  dsimp only
  rw [h]

theorem countOf?_toString (l : Lookup) {n : Nat} (hn : n < 0x8000000000000000) :
    l.countOf? (toString n) = some (n : Int) := by
  have hne : toString n ≠ "" := fun h => Text.toList_toString_ne_nil n (by rw [h]; rfl)
  unfold countOf?
  rw [Text.trim_toString, if_neg hne]
  refine l.value?_of_readInteger? ?_
  rw [Text.trim_toString, Text.readInteger?_toString hn]

/-- Counts in decimal are spelled as they are written. -/
theorem countTexts_toString (l : Lookup) {ns : List Nat} (hns : ∀ n ∈ ns, n < 0x8000000000000000) :
    String.join ((ns.map toString).map fun d => countText (l.countOf? d)).reverse =
      TypeExpr.dimsText (ns.reverse.map toString) := by
  have heach : ((ns.map toString).map fun d => countText (l.countOf? d)) =
      (ns.map toString).map fun d => "[" ++ d ++ "]" := by
    simp only [List.map_map]
    refine List.map_congr_left fun n hn => ?_
    simp only [Function.comp_apply, countOf?_toString l (hns n hn)]
    rfl
  rw [heach]
  simp [TypeExpr.dimsText, List.map_reverse]

/-- The signature of an array that is written with registered names spells the counts of its
dimensions in reverse order. So it has the normal form of the written type, where this has decimal
sizes, exactly if these read the same from either end. -/
theorem array_signature_reversed {l : Lookup} {scope : List String} {t : TypeExpr}
    (hdims : t.dims ≠ []) (hplain : isString t = false)
    (ht : l.db.Registers { t with dims := [] })
    (hn : ({ t with dims := [] } : TypeExpr).nesting < l.maxTemplateDepth) :
    ∃ b, l.bindType t none scope = .ok b ∧
      normalize b.signature = normalize (({ t with dims := [] } : TypeExpr).text ++
        String.join (t.dims.map fun d => countText (l.countOf? d)).reverse) ∧
      ∀ ns : List Nat, (∀ n ∈ ns, n < 0x8000000000000000) → t.dims = ns.map toString →
        (normalize b.signature = normalize t.text ↔ ns.reverse = ns) := by
  have hparams : t.params? = none := by
    cases ht with
    | intro _ _ _ _ hparams _ => exact hparams
  have helement : elementOf t = { t with dims := [] } := by simp [elementOf, hplain]
  obtain ⟨x, hx, halike⟩ : ∃ x, l.bindAt none scope l.maxTemplateDepth { t with dims := [] } =
      .ok x ∧ Alike x.signature ({ t with dims := [] } : TypeExpr).text := exists_alike ht hn
  rw [← helement] at hx
  obtain ⟨b, hb, hnested⟩ := bindAt_array_of_ok hdims hparams hx
  have hcounts : (l.countsOf t).map countText = t.dims.map fun d => countText (l.countOf? d) := by
    simp [countsOf, hplain, Function.comp_def]
  have hsignature : normalize b.signature = normalize (({ t with dims := [] } : TypeExpr).text ++
      String.join (t.dims.map fun d => countText (l.countOf? d)).reverse) := by
    rw [hnested.signature_eq, hcounts]
    exact (halike.append (.refl _)).normalize_eq
  refine ⟨b, hb, hsignature, fun ns hns hwritten => ?_⟩
  have hrun : ∀ (ms : List Nat), ∀ d ∈ ms.map toString, IsRun d.toList := by
    intro ms d hd
    obtain ⟨n, -, rfl⟩ := List.mem_map.mp hd
    exact ⟨Text.toList_toString_ne_nil n, fun _ => Text.isNameChar_of_mem_toString⟩
  rw [hsignature, TypeExpr.text_append_dims t, hwritten, countTexts_toString l hns, normalize_eq_iff,
    String.toList_append, String.toList_append,
    pieces_append (TypeExpr.not_isNameChar_head_dimsText _),
    pieces_append (TypeExpr.not_isNameChar_head_dimsText _), List.append_cancel_left_eq]
  constructor
  · intro h
    have hsame := TypeExpr.dims_eq_of_pieces (hrun _) (hrun _) h
    exact List.map_injective_iff.mpr (fun _ _ => Text.eq_of_toString_eq) hsame
  · intro h
    rw [h]

/-- The sizes of `int*[4][2][4]` read the same from either end. -/
theorem array_signature_reversed_palindrome :
    let t : TypeExpr := { name := ["int"], pointers := 1, dims := ["4", "2", "4"] }
    t.dims ≠ [] ∧ isString t = false ∧ sizeLookup.db.Registers { t with dims := [] } ∧
      ({ t with dims := [] } : TypeExpr).nesting < sizeLookup.maxTemplateDepth ∧
      ∃ b, sizeLookup.bindType t none [] = .ok b ∧ normalize b.signature = normalize t.text := by
  intro t
  have hregistered : sizeLookup.db.Registers { t with dims := [] } :=
    .intro rfl nofun (by decide) rfl rfl nofun
  obtain ⟨b, hb, -, hsame⟩ :=
    array_signature_reversed (l := sizeLookup) (t := t) (by decide) (by decide) hregistered
      (by decide)
  exact ⟨by decide, by decide, hregistered, by decide, b, hb,
    (hsame [4, 2, 4] (by decide) (by decide)).mpr rfl⟩

/-- The signature of `int[4][2]` is `int[2][4]`. -/
theorem dimensions_swapped :
    let t : TypeExpr := { name := ["int"], dims := ["4", "2"] }
    ∃ b, sizeLookup.bindType t none [] = .ok b ∧ t.text = "int[4][2]" ∧
      b.signature = "int[2][4]" ∧ normalize b.signature ≠ normalize t.text := by
  intro t
  obtain ⟨b, hb, hsignature⟩ : ∃ b, sizeLookup.bindType t none [] = .ok b ∧
      (b.signature == "int[2][4]") = true := Error.exists_ok_of_any (by decide +kernel)
  have htext : t.text = "int[4][2]" := by decide +kernel
  have hsignature := eq_of_beq hsignature
  refine ⟨b, hb, htext, hsignature, ?_⟩
  rw [hsignature, htext]
  decide +kernel

end Lookup
end BindingModel
