import BindingModel.Api.Function
import BindingModel.Proofs.Lookup.Levels
import BindingModel.Proofs.Signature.Normal

/-! Types that are written with registered names only are bound as they are written, and their
signatures spell them: a rule that names the parameter types of a function as the header writes
them finds the function. -/
namespace BindingModel

namespace TypeExpr

mutual

/-- How many levels of template arguments a type has. -/
def nesting : TypeExpr → Nat
  | ⟨_, _, _, _, _, _, args, _⟩ => levels args

def levels : List TypeExpr → Nat
  | [] => 0
  | t :: ts => max (nesting t + 1) (levels ts)

end

theorem nesting_lt_of_mem {a t : TypeExpr} (ha : a ∈ t.args) : a.nesting < t.nesting := by
  have hlevels : ∀ l : List TypeExpr, a ∈ l → a.nesting < levels l := by
    intro l hl
    induction l with
    | nil => cases hl
    | cons b l ih =>
      unfold levels
      rcases List.mem_cons.mp hl with rfl | hl
      · omega
      · have hrest := ih hl
        omega
  cases t
  exact hlevels _ ha

end TypeExpr

/-- All names in a type are registered, those with template arguments for entries of a kind that
takes them, and it has neither arrays nor function pointers nor instances of `QFlags`. Of several
entries of one name the first that is no function counts. -/
inductive Database.Registers (db : Database) : TypeExpr → Prop
  | intro {t : TypeExpr} {e : Entry} (hentry : db.findType? t.qualifiedName = some e)
      (htakes : t.args ≠ [] → e.kind.takesArguments = true)
      (hflags : t.args ≠ [] → t.qualifiedName ≠ "QFlags") (hdims : t.dims = [])
      (hparams : t.params? = none) (hargs : ∀ a ∈ t.args, Registers db a) : Registers db t

theorem Database.name_of_findType? {db : Database} {name : String} {e : Entry}
    (h : db.findType? name = some e) : e.name = name := by
  have hmem : e ∈ db.named name := List.mem_of_find?_eq_some h
  exact eq_of_beq (List.mem_filter.mp hmem).2

namespace Lookup
open Api Signature
variable {l : Lookup} {t : TypeExpr} {n : Nat} {scope : List String}

theorem lookupName_of_ne (h : t.args ≠ [] → t.qualifiedName ≠ "QFlags") :
    lookupName t = t.qualifiedName ∧ boundArgs t = t.args := by
  have hflags : (t.qualifiedName == "QFlags" && !t.args.isEmpty) = false := by
    by_cases hargs : t.args = []
    · simp [hargs]
    · simp [h hargs]
  unfold lookupName boundArgs
  rw [hflags]
  exact ⟨rfl, rfl⟩

theorem text_eq (hdims : t.dims = []) (hparams : t.params? = none) :
    t.text = TypeExpr.cvText t.isConst t.isVolatile ++ t.qualifiedName ++
      TypeExpr.argsText t.args ++ TypeExpr.stars t.pointers ++ t.ref.text := by
  cases t
  obtain rfl := hdims
  obtain rfl := hparams
  simp [TypeExpr.text, TypeExpr.paramsText, TypeExpr.dimsText, TypeExpr.qualifiedName]

theorem alike_restSignature {as : List BoundType} {args : List TypeExpr}
    (h : List.Forall₂ (fun arg a => Alike (BoundType.signature a) arg.text) args as) :
    Alike (BoundType.restSignature as) (TypeExpr.restText args) := by
  induction h with
  | nil => exact .refl ""
  | cons harg _ ih => exact (Alike.comma.symm.append harg).append ih

theorem alike_argsSignature {as : List BoundType} {args : List TypeExpr}
    (h : List.Forall₂ (fun arg a => Alike (BoundType.signature a) arg.text) args as) :
    Alike (BoundType.argsSignature as) (TypeExpr.argsText args) := by
  cases h with
  | nil => exact .refl ""
  | cons harg hrest =>
    exact (((Alike.refl "<").append harg).append (alike_restSignature hrest)).append (.refl ">")

/-- The induction is on the levels of nesting that are left. -/
theorem exists_alike (ht : l.db.Registers t) (hn : t.nesting < n) :
    ∃ b, l.bindAt none scope n t = .ok b ∧ Alike b.signature t.text := by
  induction n generalizing t with
  | zero => cases hn
  | succ n ih =>
    obtain @⟨_, e, hentry, htakes, hflags, hdims, hparams, hargs⟩ := ht
    obtain ⟨hname, hbound⟩ := lookupName_of_ne hflags
    have hinner : ∀ arg ∈ t.args,
        ∃ a, l.bindAt none scope n arg = .ok a ∧ Alike a.signature arg.text := by
      intro arg harg
      have hless := TypeExpr.nesting_lt_of_mem harg
      exact ih (hargs arg harg) (by omega)
    obtain ⟨as, has, halike⟩ := Error.exists_mapM hinner
    have hmeaning : l.meaning? (lookupName t) t.localName none = some e := by
      simp [meaning?, hname, hentry]
    have hforall := Error.forall₂_of_mapM has
    rw [← hbound] at htakes hforall
    have hwritten := (bindWritten_eq_ok_iff hparams hdims).mpr
      ⟨e, hmeaning, htakes, as, hforall, rfl⟩
    refine ⟨_, bindAt_of_bindWritten hwritten, ?_⟩
    rw [text_eq hdims hparams, ← Database.name_of_findType? hentry]
    have hargument := ((Alike.refl (TypeExpr.cvText t.isConst t.isVolatile)).append
      (.refl e.name)).append (alike_argsSignature halike)
    exact (hargument.append (.refl (TypeExpr.stars t.pointers))).append (.refl t.ref.text)

theorem alike_signature_of_bindType {b : BoundType} (ht : l.db.Registers t)
    (hn : t.nesting ≤ l.maxTemplateDepth) (hb : l.bindType t none scope = .ok b) :
    Alike b.signature t.text := by
  obtain ⟨b', hb', halike⟩ := exists_alike ht (Nat.lt_succ_of_le hn)
  obtain rfl := Except.ok.inj (hb'.symm.trans hb)
  exact halike

/-- A type that is written with registered names is bound, and its signature has the same normal form
as its spelling. So a rule with the spellings of the parameter types covers the function. -/
theorem signatures_as_written (l : Lookup) (scope : List String) :
    (∀ t, l.db.Registers t → t.nesting ≤ l.maxTemplateDepth →
      ∃ b, l.bindType t none scope = .ok b ∧ normalize b.signature = normalize t.text) ∧
    ∀ (f : Function) (types : List TypeExpr), f.has .const = false →
      List.Forall₂ (fun a t => l.db.Registers t ∧ t.nesting ≤ l.maxTemplateDepth ∧
        l.bindType t none scope = .ok a.type) f.args types →
      (FunctionMod.ofSignature (f.declaredName ++ "(" ++
        Text.joinWith "," (types.map (·.text)) ++ ")")).covers f.signature = true := by
  refine ⟨fun t ht hn => ?_, fun f types hconst hargs => ?_⟩
  · obtain ⟨b, hb, halike⟩ := exists_alike ht (Nat.lt_succ_of_le hn)
    exact ⟨b, hb, halike.normalize_eq⟩
  · have hspelled : List.Forall₂ Alike (types.map (·.text))
        (f.args.map (·.type.signature)) := by
      rw [List.forall₂_map_left_iff, List.forall₂_map_right_iff]
      refine hargs.flip.imp fun t a h => ?_
      obtain ⟨ht, hn, hb⟩ := h
      exact (alike_signature_of_bindType ht hn hb).symm
    have halike := ((Alike.refl (f.declaredName ++ "(")).append
      (Alike.joinWith "," hspelled)).append (.refl ")")
    unfold FunctionMod.covers FunctionMod.ofSignature FunctionTarget.covers Function.signature
    simp only [hconst, Bool.false_eq_true, if_false, String.append_empty, normalize_normalize,
      beq_iff_eq]
    exact halike.normalize_eq

/-- Knows a list, a string and a number. -/
def listLookup : Lookup where
  db := {
    entries := [⟨some 0, "int", .primitive⟩, ⟨some 1, "QString", .complex .value {}⟩,
      ⟨some 2, "QList", .complex .container {}⟩] }

/-- A rule for `setRows(const QList<QList<QString>>&,int*)`. -/
theorem signatures_as_written_rows :
    let word : TypeExpr := .ofName "QString"
    let row : TypeExpr := { name := ["QList"], args := [word] }
    let rows : TypeExpr := { name := ["QList"], args := [row], isConst := true, ref := .lvalue }
    let count : TypeExpr := { name := ["int"], pointers := 1 }
    listLookup.db.Registers rows ∧ listLookup.db.Registers count ∧
      ∃ b c, listLookup.bindType rows none [] = .ok b ∧
        listLookup.bindType count none [] = .ok c ∧ ∃ f : Function, f.has .const = false ∧
          f.args = [.make "rows" b 0, .make "count" c 1] ∧
          (FunctionMod.ofSignature "setRows(const QList<QList<QString>>&,int*)").covers
            f.signature = true := by
  intro word row rows count
  have hword : listLookup.db.Registers word :=
    .intro rfl (fun _ => rfl) (by decide) rfl rfl nofun
  have hrow : listLookup.db.Registers row :=
    .intro rfl (fun _ => rfl) (by decide) rfl rfl (by simpa [row] using hword)
  have hrows : listLookup.db.Registers rows :=
    .intro rfl (fun _ => rfl) (by decide) rfl rfl (by simpa [rows] using hrow)
  have hcount : listLookup.db.Registers count :=
    .intro rfl nofun (by decide) rfl rfl nofun
  obtain ⟨hbound, hcovers⟩ := signatures_as_written listLookup []
  obtain ⟨b, hb, -⟩ := hbound rows hrows (by decide)
  obtain ⟨c, hc, -⟩ := hbound count hcount (by decide)
  let f : Function := {
    name := "setRows", declaredName := "setRows", kind := .normal
    args := [.make "rows" b 0, .make "count" c 1] }
  have hspelled : "setRows" ++ "(" ++ Text.joinWith "," ([rows, count].map (·.text)) ++ ")" =
      "setRows(const QList<QList<QString>>&,int*)" := by decide +kernel
  refine ⟨hrows, hcount, b, c, hb, hc, f, rfl, rfl, hspelled ▸ ?_⟩
  exact hcovers f [rows, count] rfl
    (.cons ⟨hrows, by decide, hb⟩ (.cons ⟨hcount, by decide, hc⟩ .nil))

end Lookup
end BindingModel
