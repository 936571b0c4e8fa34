import BindingModel.Api.Property
import BindingModel.Proofs.TypeExpr.Declarations
import BindingModel.Proofs.TypeExpr.Words
import Mathlib

/-! What is read of a property text whose clauses stand in any order. Clauses are read as pairs of
words, so behind a marker, which has no value, keywords are taken for values until the next marker
restores the step. -/
namespace BindingModel
open TypeExpr (IsParameterName)

namespace Token
open Text

theorem isWord_of_all {w : String} (hhead : w.toList.head?.any isNameStart = true)
    (hall : w.toList.all isNameChar = true) : IsWord w := by
  cases hw : w.toList with
  | nil =>
    rw [hw] at hhead
    cases hhead
  | cons c s =>
    rw [hw] at hhead hall
    have hname := List.all_eq_true.mp hall
    exact ⟨c, s, hw, isBlank_of_isNameChar (hname c List.mem_cons_self), by simpa using hhead,
      fun x hx => hname x (List.mem_cons_of_mem c hx)⟩

end Token

/-- A clause of a property text: a keyword with a value, or a marker. -/
structure PropertyClause where
  keyword : String
  value? : Option String
  deriving DecidableEq

namespace PropertyClause

def words (c : PropertyClause) : List String := c.keyword :: c.value?.toList

/-- The keywords and values of the clauses that stand behind an odd, or even, number of markers. -/
def behind : (odd : Bool) → List PropertyClause → List (String × String)
  | _, [] => []
  | odd, ⟨_, none⟩ :: cs => behind (!odd) cs
  | true, ⟨_, some _⟩ :: cs => behind true cs
  | false, ⟨k, some v⟩ :: cs => (k, v) :: behind false cs

theorem count_behind (k v : String) (cs : List PropertyClause) :
    cs.count ⟨k, some v⟩ = (behind false cs).count (k, v) + (behind true cs).count (k, v) := by
  induction cs with
  | nil => rfl
  | cons c cs ih =>
    obtain ⟨k', _ | v'⟩ := c
    · rw [List.count_cons_of_ne (by simp), ih, behind, behind, Nat.add_comm]
      rfl
    · rw [List.count_cons, ih, behind, behind, List.count_cons, Nat.add_right_comm]
      simp

theorem mem_of_mem_behind {odd : Bool} {k v : String} {cs : List PropertyClause}
    (h : (k, v) ∈ behind odd cs) : ⟨k, some v⟩ ∈ cs := by
  rw [← List.count_pos_iff, count_behind]
  have hpos := List.count_pos_iff.mpr h
  cases odd <;> omega

end PropertyClause

namespace Api.PropertyText
open PropertyClause

/-- The keywords whose values are kept. -/
def accessorWords : List String := ["READ", "WRITE", "RESET", "DESIGNABLE"]

/-- The keywords whose values are passed over. -/
def passedWords : List String := ["NOTIFY", "SCRIPTABLE", "STORED", "USER", "MEMBER", "REVISION"]

/-- The keywords without a value. -/
def markerWords : List String := ["CONSTANT", "FINAL"]

def Clauses.get? (c : Clauses) : String → Option String
  | "READ" => c.read?
  | "WRITE" => c.write?
  | "RESET" => c.reset?
  | "DESIGNABLE" => c.designable?
  | _ => none

theorem Clauses.take_of_not_mem {c : Clauses} {k : String} (hk : k ∉ accessorWords)
    (v? : Option String) : c.take k v? = c := by
  unfold take
  split <;> first | rfl | exact absurd (by decide) hk

theorem Clauses.get?_take {k : String} (hk : k ∈ accessorWords) (c : Clauses) (k' : String)
    (v? : Option String) : (c.take k' v?).get? k = if k' = k then v? else c.get? k := by
  simp only [accessorWords, List.mem_cons, List.not_mem_nil, or_false] at hk
  rcases hk with rfl | rfl | rfl | rfl <;> unfold take <;> split <;> simp_all [get?]

/-- Take a keyword and its value. -/
def Clauses.takePair (c : Clauses) (pair : String × String) : Clauses :=
  c.take pair.1 (some pair.2)

/-- Pairs of words are clauses in step; out of step, the word before them pairs with the keyword
and the value with the keyword of the next clause. -/
theorem Clauses.read_words {cs : List PropertyClause}
    (hmarkers : ∀ k, ⟨k, none⟩ ∈ cs → k ∉ accessorWords) :
    (∀ c : Clauses, (∀ kv ∈ behind true cs, kv.2 ∉ accessorWords) →
      c.read (cs.flatMap words) = (behind false cs).foldl takePair c) ∧
    ∀ (c : Clauses) (w : String), w ∉ accessorWords →
      (∀ kv ∈ behind false cs, kv.2 ∉ accessorWords) →
        c.read (w :: cs.flatMap words) = (behind true cs).foldl takePair c := by
  induction cs with
  | nil =>
    refine ⟨fun c _ => rfl, fun c w hw _ => ?_⟩
    exact take_of_not_mem hw none
  | cons clause cs ih =>
    obtain ⟨hstep, hpending⟩ := ih fun k hk => hmarkers k (List.mem_cons_of_mem _ hk)
    obtain ⟨k, _ | v⟩ := clause
    · have hk := hmarkers k List.mem_cons_self
      constructor
      · intro c hvalues
        exact hpending c k hk hvalues
      · intro c w hw hvalues
        have hread := hstep (c.take w (some k)) hvalues
        rw [take_of_not_mem hw] at hread
        exact (congrArg (Clauses.read · _) (take_of_not_mem hw (some k))).trans hread
    · constructor
      · intro c hvalues
        exact hstep (c.take k (some v)) hvalues
      · intro c w hw hvalues
        obtain ⟨hv, hvalues⟩ := List.forall_mem_cons.mp hvalues
        have hread := hpending c v hv hvalues
        exact (congrArg (Clauses.read · _) (take_of_not_mem hw (some k))).trans hread

/-- A property as it is written, but for the order of the clauses. -/
structure Written where
  typeText : String
  type : TypeExpr
  name : String
  read : String
  write? : Option String := none
  reset? : Option String := none
  designable? : Option String := none
  others : List PropertyClause := []
  parse_typeText : TypeExpr.parse typeText = .ok type
  isParameterName : IsParameterName name
  passed_or_marker : ∀ c ∈ others,
    (c.keyword ∈ passedWords ∧ c.value?.isSome) ∨ (c.keyword ∈ markerWords ∧ c.value? = none)

namespace Written
variable (p : Written)

def property : PropertyText where
  name := p.name
  type := p.type
  read := p.read
  write? := p.write?
  reset? := p.reset?
  designable? := p.designable?

def given : Clauses where
  read? := some p.read
  write? := p.write?
  reset? := p.reset?
  designable? := p.designable?

/-- The clauses whose values are kept. -/
def accessors : List PropertyClause :=
  accessorWords.filterMap fun k => (p.given.get? k).map (⟨k, some ·⟩)

def clauses : List PropertyClause := p.accessors ++ p.others

def declaration : List String := Text.words p.typeText ++ [p.name]

variable {p}

theorem not_mem_accessorWords {c : PropertyClause} (hc : c ∈ p.others) :
    c.keyword ∉ accessorWords := by
  have hpassed : ∀ k ∈ passedWords, k ∉ accessorWords := by decide
  have hmarker : ∀ k ∈ markerWords, k ∉ accessorWords := by decide
  rcases p.passed_or_marker c hc with h | h
  · exact hpassed _ h.1
  · exact hmarker _ h.1

theorem mem_accessors_iff {c : PropertyClause} :
    c ∈ p.accessors ↔
      c.keyword ∈ accessorWords ∧ ∃ v, p.given.get? c.keyword = some v ∧ c.value? = some v := by
  simp only [accessors, List.mem_filterMap, Option.map_eq_some_iff]
  constructor
  · rintro ⟨k, hk, v, hv, rfl⟩
    exact ⟨hk, v, hv, rfl⟩
  · obtain ⟨k, v?⟩ := c
    rintro ⟨hk, v, hv, rfl⟩
    exact ⟨k, hk, v, hv, rfl⟩

theorem mem_clauses_iff {k v : String} (hk : k ∈ accessorWords) :
    ⟨k, some v⟩ ∈ p.clauses ↔ p.given.get? k = some v := by
  rw [clauses, List.mem_append, mem_accessors_iff]
  constructor
  · rintro (⟨-, v', hv', heq⟩ | hmem)
    · cases heq
      exact hv'
    · exact absurd hk (not_mem_accessorWords hmem)
  · intro hv
    exact .inl ⟨hk, v, hv, rfl⟩

theorem nodup_accessors : p.accessors.Nodup := by
  have hwords : accessorWords.Nodup := by decide
  apply hwords.filterMap
  intro k k' c hc hc'
  obtain ⟨v, -, rfl⟩ := Option.map_eq_some_iff.mp hc
  obtain ⟨v', -, heq⟩ := Option.map_eq_some_iff.mp hc'
  exact (congrArg PropertyClause.keyword heq).symm

theorem count_clauses {k v : String} (hk : k ∈ accessorWords) (hv : p.given.get? k = some v) :
    p.clauses.count ⟨k, some v⟩ = 1 := by
  have hothers : ⟨k, some v⟩ ∉ p.others := fun hmem => absurd hk (not_mem_accessorWords hmem)
  rw [clauses, List.count_append, List.count_eq_zero.mpr hothers]
  exact List.count_eq_one_of_mem nodup_accessors (mem_accessors_iff.mpr ⟨hk, v, hv, rfl⟩)

end Written

/-- A keyword all of whose clauses have one value is read with it when there is such a clause. -/
theorem Clauses.get?_foldl_takePair {k : String} (hk : k ∈ accessorWords) {v? : Option String}
    {pairs : List (String × String)} (hvalue : ∀ kv ∈ pairs, kv.1 = k → some kv.2 = v?)
    (c : Clauses) :
    (pairs.foldl takePair c).get? k = if k ∈ pairs.map (·.1) then v? else c.get? k := by
  induction pairs generalizing c with
  | nil => rfl
  | cons pair pairs ih =>
    obtain ⟨hpair, hvalue⟩ := List.forall_mem_cons.mp hvalue
    rw [List.foldl_cons, ih hvalue, takePair, get?_take hk, List.map_cons]
    by_cases heq : pair.1 = k
    · simp [heq, hpair heq]
    · rw [if_neg heq]
      simp only [List.mem_cons, Ne.symm heq, false_or]

theorem Clauses.ext_get? {c c' : Clauses} (h : ∀ k ∈ accessorWords, c.get? k = c'.get? k) :
    c = c' := by
  obtain ⟨hread, hwrite, hreset, hdesignable⟩ : c.get? "READ" = c'.get? "READ" ∧
      c.get? "WRITE" = c'.get? "WRITE" ∧ c.get? "RESET" = c'.get? "RESET" ∧
        c.get? "DESIGNABLE" = c'.get? "DESIGNABLE" := by
    simpa [accessorWords] using h
  cases c
  cases c'
  simp_all [get?]

section
variable {p : Written} {order : List PropertyClause} (hperm : order.Perm p.clauses)
  (hvalues : ∀ kv ∈ behind true order, kv.2 ∉ accessorWords)
include hperm hvalues

theorem read_words_of_perm :
    Clauses.read {} (order.flatMap words) = (behind false order).foldl Clauses.takePair {} := by
  apply (Clauses.read_words _).1 {} hvalues
  intro k hk
  rcases List.mem_append.mp (hperm.mem_iff.mp hk) with h | h
  · obtain ⟨-, v, -, hv⟩ := Written.mem_accessors_iff.mp h
    cases hv
  · exact Written.not_mem_accessorWords h

/-- The value of a keyword is read when the clause does not stand behind an odd number of
markers. -/
theorem get?_read_iff {k : String} (hk : k ∈ accessorWords) :
    (Clauses.read {} (order.flatMap words)).get? k = p.given.get? k ↔
      ∀ kv ∈ behind true order, kv.1 ≠ k := by
  have hgiven : ∀ odd, ∀ kv ∈ behind odd order, kv.1 = k → some kv.2 = p.given.get? k := by
    rintro odd ⟨k', v⟩ hkv rfl
    exact ((Written.mem_clauses_iff hk).mp (hperm.mem_iff.mp (mem_of_mem_behind hkv))).symm
  have hempty : ({} : Clauses).get? k = none := by
    unfold Clauses.get?
    split <;> rfl
  rw [read_words_of_perm hperm hvalues, Clauses.get?_foldl_takePair hk (hgiven false), hempty]
  cases hv : p.given.get? k with
  | none =>
    simp only [ite_self, true_iff]
    intro kv hkv hkey
    have := hgiven true kv hkv hkey
    rw [hv] at this
    cases this
  | some v =>
    -- The one clause of the keyword is either in step or out of step.
    have hcount := count_behind k v order
    rw [hperm.count_eq, Written.count_clauses hk hv] at hcount
    have hpair : ∀ odd, (∃ kv ∈ behind odd order, kv.1 = k) ↔ 0 < (behind odd order).count (k, v) := by
      intro odd
      rw [List.count_pos_iff]
      constructor
      · rintro ⟨⟨k', v'⟩, hkv, rfl⟩
        have hv' := hgiven odd _ hkv rfl
        rw [hv] at hv'
        cases hv'
        exact hkv
      · intro hkv
        exact ⟨_, hkv, rfl⟩
    have hread : (if k ∈ (behind false order).map (·.1) then some v else none) = some v ↔
        0 < (behind false order).count (k, v) := by
      rw [← hpair false]
      simp [eq_comm]
    have hskipped : (∀ kv ∈ behind true order, kv.1 ≠ k) ↔
        ¬0 < (behind true order).count (k, v) := by
      rw [← hpair true]
      exact ⟨fun h ⟨kv, hkv, heq⟩ => h kv hkv heq, fun h kv hkv heq => h ⟨kv, hkv, heq⟩⟩
    rw [hread, hskipped]
    omega

theorem read_eq_given_iff :
    Clauses.read {} (order.flatMap words) = p.given ↔
      ∀ kv ∈ behind true order, kv.1 ∉ accessorWords := by
  constructor
  · intro hread kv hkv hk
    have hget := congrArg (Clauses.get? · kv.1) hread
    exact (get?_read_iff hperm hvalues hk).mp hget kv hkv rfl
  · intro hstep
    apply Clauses.ext_get?
    intro k hk
    rw [get?_read_iff hperm hvalues hk]
    rintro kv hkv rfl
    exact hstep kv hkv hk

end

/-- Words up to the first keyword are the declaration. -/
theorem span_keywords {front back : List String} {k : String} (hfront : ∀ w ∈ front, w ∉ keywords)
    (hk : k ∈ keywords) :
    (front ++ k :: back).span (· ∉ keywords) = (front, k :: back) := by
  have hpos : ∀ w ∈ front, decide (w ∉ keywords) = true := fun w hw => decide_eq_true (hfront w hw)
  rw [List.span_eq_takeWhile_dropWhile, List.takeWhile_append_of_pos hpos,
    List.dropWhile_append_of_pos hpos, List.takeWhile_cons_of_neg (by simpa using hk),
    List.dropWhile_cons_of_neg (by simpa using hk), List.append_nil]

theorem parse_eq_ok_iff {src : String} {front clauses : List String}
    (hspan : (Text.words src).span (· ∉ keywords) = (front, clauses)) {q : PropertyText} :
    parse src = .ok q ↔
      2 ≤ front.length ∧
        TypeExpr.parseDeclaration (Text.joinWith " " front) = .ok (q.type, some q.name) ∧
        Clauses.read {} clauses =
          { read? := some q.read, write? := q.write?, reset? := q.reset?,
            designable? := q.designable? } := by
  unfold parse
  rw [hspan]
  dsimp only
  constructor
  · intro h
    split at h
    · cases h
    · split at h
      · cases h
      · next hlength =>
        obtain ⟨⟨type, name?⟩, hdeclaration, h⟩ := Error.bind_eq_ok h
        dsimp only at h
        split at h
        · cases h
        · cases h
        · next hread =>
          cases h
          exact ⟨Nat.le_of_not_lt hlength, hdeclaration, hread⟩
  · rintro ⟨hlength, hdeclaration, hread⟩
    have hclauses : clauses.isEmpty = false := by
      cases clauses with
      | nil => cases hread
      | cons k clauses => rfl
    rw [if_neg (by simp [hclauses]), if_neg (by omega), hdeclaration]
    simp only [bind, Except.bind, hread]
    rfl

theorem isParameterName_of_mem_keywords {k : String} (hk : k ∈ keywords) : IsParameterName k := by
  have hall : ∀ k ∈ keywords, k.toList.head?.any Text.isNameStart = true ∧
      k.toList.all Text.isNameChar = true ∧ k ≠ "const" ∧ k ≠ "volatile" ∧
        k ∉ TypeExpr.builtinWords := by decide
  obtain ⟨hhead, hchars, hplain⟩ := hall k hk
  exact ⟨Token.isWord_of_all hhead hchars, hplain⟩

namespace Written
variable {p : Written}

theorem scanWords_declaration {us : List Token}
    (hscan : Token.scan p.typeText.toList = some us) :
    Token.scanWords p.declaration = some (us ++ [.ident p.name]) := by
  rw [declaration, Token.scanWords_append, ← Token.scan_words, hscan, Token.scanWords_singleton,
    TypeExpr.scan_of_isWord p.isParameterName.1]
  rfl

theorem parseDeclaration_declaration :
    TypeExpr.parseDeclaration (Text.joinWith " " p.declaration) = .ok (p.type, some p.name) := by
  apply TypeExpr.parseDeclaration_of_scan p.parse_typeText p.isParameterName
  intro us hscan
  rw [Token.scan_joinWith, scanWords_declaration hscan]

/-- Without its last words the declaration is that of another type or name. -/
theorem parseDeclaration_front_ne {front back : List String} {k : String}
    (hk : IsParameterName k) (hsplit : p.declaration = front ++ k :: back) :
    TypeExpr.parseDeclaration (Text.joinWith " " front) ≠ .ok (p.type, some p.name) := by
  intro h
  obtain ⟨vs, hfront, hshort⟩ := TypeExpr.parseDeclaration_eq_ok h
  obtain ⟨us, hscan, hread⟩ := TypeExpr.parse_eq_ok p.parse_typeText
  have hall := scanWords_declaration hscan
  rw [Token.scan_joinWith] at hfront
  have hkeyword : Token.scanWords (k :: back) =
      (Token.scanWords back).map (.ident k :: ·) := by
    rw [Token.scanWords, TypeExpr.scan_of_isWord hk.1]
    rfl
  rw [hsplit, Token.scanWords_append, hfront, hkeyword] at hall
  obtain ⟨more, hunits⟩ : ∃ more, vs ++ .ident k :: more = us ++ [.ident p.name] := by
    cases hback : Token.scanWords back with
    | none => simp [hback] at hall
    | some more => exact ⟨more, by simpa [hback] using hall⟩
  -- Both ways to cut the units leave the name behind the type, and one leaves more behind it.
  have hone := TypeExpr.readType_name p.isParameterName [] p.typeText p.typeText _ _ _ _
    hread
  have hother := TypeExpr.readType_name hk more _ p.typeText _ _ _ _ hshort
  rw [hunits, hone] at hother
  simp at hother

theorem keyword_mem_keywords {c : PropertyClause} (hc : c ∈ p.clauses) :
    c.keyword ∈ keywords := by
  have haccessor : ∀ k ∈ accessorWords, k ∈ keywords := by decide
  have hpassed : ∀ k ∈ passedWords, k ∈ keywords := by decide
  have hmarker : ∀ k ∈ markerWords, k ∈ keywords := by decide
  rcases List.mem_append.mp hc with h | h
  · exact haccessor _ (mem_accessors_iff.mp h).1
  · rcases p.passed_or_marker c h with h | h
    · exact hpassed _ h.1
    · exact hmarker _ h.1

theorem two_le_length_declaration : 2 ≤ p.declaration.length := by
  rw [declaration, List.length_append, List.length_singleton]
  cases hwords : Text.words p.typeText with
  | nil =>
    obtain ⟨us, hscan, hread⟩ := TypeExpr.parse_eq_ok p.parse_typeText
    rw [Token.scan_words, hwords] at hscan
    cases hscan
    cases hread
  | cons w ws =>
    rw [List.length_cons]
    omega

end Written

theorem span_written {p : Written} {order : List PropertyClause} (hperm : order.Perm p.clauses)
    (hdeclaration : ∀ w ∈ p.declaration, w ∉ keywords) :
    (p.declaration ++ order.flatMap PropertyClause.words).span (· ∉ keywords) =
      (p.declaration, order.flatMap PropertyClause.words) := by
  have hread : ⟨"READ", some p.read⟩ ∈ order :=
    hperm.mem_iff.mpr ((Written.mem_clauses_iff (by decide)).mpr rfl)
  cases order with
  | nil => cases hread
  | cons c order =>
    exact span_keywords hdeclaration
      (Written.keyword_mem_keywords (hperm.mem_iff.mp List.mem_cons_self))

/-- The property is read, in whatever order the clauses stand, when no word of the declaration is a
keyword and no clause whose value is kept stands behind an odd number of markers; otherwise it is
not. -/
theorem parse_eq_property_iff {p : Written} {order : List PropertyClause} {src : String}
    (hperm : order.Perm p.clauses)
    (hsrc : Text.words src = p.declaration ++ order.flatMap PropertyClause.words)
    (hvalues : ∀ kv ∈ behind true order, kv.2 ∉ accessorWords) :
    parse src = .ok p.property ↔
      (∀ w ∈ p.declaration, w ∉ keywords) ∧ ∀ kv ∈ behind true order, kv.1 ∉ accessorWords := by
  rw [← read_eq_given_iff hperm hvalues]
  by_cases hdeclaration : ∀ w ∈ p.declaration, w ∉ keywords
  · have hspan := span_written hperm hdeclaration
    rw [← hsrc] at hspan
    rw [parse_eq_ok_iff hspan]
    constructor
    · rintro ⟨-, -, hread⟩
      exact ⟨hdeclaration, hread⟩
    · rintro ⟨-, hread⟩
      exact ⟨Written.two_le_length_declaration, Written.parseDeclaration_declaration, hread⟩
  · constructor
    · intro h
      -- The words up to the keyword would have to declare the type and name.
      have hkeyword : (p.declaration.find? (· ∈ keywords)).isSome = true := by
        simpa using hdeclaration
      obtain ⟨k, hfind⟩ := Option.isSome_iff_exists.mp hkeyword
      obtain ⟨hk, front, back, hsplit, hfront⟩ := List.find?_eq_some_iff_append.mp hfind
      have hspan : (Text.words src).span (· ∉ keywords) =
          (front, k :: (back ++ order.flatMap PropertyClause.words)) := by
        rw [hsrc, hsplit, List.append_assoc]
        exact span_keywords (by simpa using hfront) (by simpa using hk)
      obtain ⟨-, hfrontDeclaration, -⟩ := (parse_eq_ok_iff hspan).mp h
      have hname := isParameterName_of_mem_keywords (by simpa using hk)
      exact absurd hfrontDeclaration (Written.parseDeclaration_front_ne hname hsplit)
    · rintro ⟨h, -⟩
      exact absurd h hdeclaration

/-- A property with a setter and two markers. -/
def Written.items : Written where
  typeText := "QList<int >"
  type := { name := ["QList"], args := [{ name := ["int"] }] }
  name := "items"
  read := "items"
  write? := some "setItems"
  others := [⟨"CONSTANT", none⟩, ⟨"FINAL", none⟩, ⟨"STORED", some "false"⟩]
  parse_typeText := by cbv
  isParameterName := ⟨Token.isWord_of_all (by decide) (by decide), by decide⟩
  passed_or_marker := by decide

theorem parse_eq_property_iff_items :
    let src := "QList<int > items WRITE setItems CONSTANT STORED false FINAL READ items"
    let order : List PropertyClause := [⟨"WRITE", some "setItems"⟩, ⟨"CONSTANT", none⟩,
      ⟨"STORED", some "false"⟩, ⟨"FINAL", none⟩, ⟨"READ", some "items"⟩]
    order.Perm Written.items.clauses ∧
      Text.words src = Written.items.declaration ++ order.flatMap PropertyClause.words ∧
      (∀ kv ∈ behind true order, kv.2 ∉ accessorWords) ∧
      parse src = .ok Written.items.property := by
  intro src order
  have hperm : order.Perm Written.items.clauses := by decide
  have hsrc : Text.words src = Written.items.declaration ++ order.flatMap PropertyClause.words := by
    decide +kernel
  have hvalues : ∀ kv ∈ behind true order, kv.2 ∉ accessorWords := by decide
  have hdeclaration : ∀ w ∈ Written.items.declaration, w ∉ keywords := by decide +kernel
  have hstep : ∀ kv ∈ behind true order, kv.1 ∉ accessorWords := by decide
  exact ⟨hperm, hsrc, hvalues, (parse_eq_property_iff hperm hsrc hvalues).mpr ⟨hdeclaration, hstep⟩⟩

/-- The same clauses in an order in which the setter stands behind one marker. -/
theorem parse_items_without_write :
    let src := "QList<int > items READ items CONSTANT WRITE setItems FINAL STORED false"
    let order : List PropertyClause := [⟨"READ", some "items"⟩, ⟨"CONSTANT", none⟩,
      ⟨"WRITE", some "setItems"⟩, ⟨"FINAL", none⟩, ⟨"STORED", some "false"⟩]
    order.Perm Written.items.clauses ∧
      Text.words src = Written.items.declaration ++ order.flatMap PropertyClause.words ∧
      parse src = .ok { Written.items.property with write? := none } ∧
      Written.items.property.write? = some "setItems" := by
  intro src order
  have hperm : order.Perm Written.items.clauses := by decide
  have hsrc : Text.words src = Written.items.declaration ++ order.flatMap PropertyClause.words := by
    decide +kernel
  have hspan : (Text.words src).span (· ∉ keywords) =
      (["QList<int", ">", "items"], order.flatMap PropertyClause.words) := by decide +kernel
  refine ⟨hperm, hsrc, (parse_eq_ok_iff hspan).mpr ⟨by decide, ?_, rfl⟩, rfl⟩
  exact Written.parseDeclaration_declaration (p := Written.items)

end Api.PropertyText
end BindingModel
