import BindingModel.Proofs.Assembly.Drafting

/-! The passes behind the resolution of bases. They copy no modification any more: functions are
modified as before each of them. -/
namespace BindingModel.Assembly
open Api Header

/-! ### Checks of the entries -/

theorem checkEntry_of_enum {e : Entry} (he : e.kind = .enumeration) (s : State) :
    checkEntry s e =
      if s.db.generatesTargetLang e && !isDeclaredEnum s e then
        (s.modifyDatabase (·.setCodegen e noCode)).warn (.enumNotDeclared e.name)
      else s := by
  unfold checkEntry
  rw [he]

theorem db_checkEntry_of_ne {e : Entry} (he : e.kind ≠ .enumeration) (s : State) :
    (checkEntry s e).db = s.db := by
  have hwarned : ∀ (b : Bool) w, (s.warnIf b w).db = s.db := by
    intro b w
    unfold State.warnIf
    split <;> rfl
  unfold checkEntry
  split
  · exact hwarned _ _
  · exact hwarned _ _
  · split
    · exact s.db_warnAll _
    · rfl
  · next henum => exact absurd henum he
  · rfl

theorem sameMods_checkEntry (s : State) (e : Entry) : s.db.SameMods (checkEntry s e).db := by
  by_cases he : e.kind = .enumeration
  · rw [checkEntry_of_enum he]
    split
    · exact .setCodegen s.db e noCode
    · exact .refl s.db
  · rw [db_checkEntry_of_ne he]
    exact .refl s.db

theorem sameMods_checkEntries (s : State) : s.db.SameMods (checkEntries s).db :=
  List.foldlRecOn (motive := fun t : State => s.db.SameMods t.db) _ checkEntry (.refl s.db)
    fun t ht e _ => ht.trans (sameMods_checkEntry t e)

/-! ### Marks and operators -/

theorem db_foldl {α : Type} {f : State → α → State} (hf : ∀ s a, (f s a).db = s.db) (l : List α)
    (s : State) : (l.foldl f s).db = s.db :=
  List.foldlRecOn (motive := fun t : State => t.db = s.db) l f rfl fun t ht a _ => (hf t a).trans ht

theorem db_markClassOf (env : Env) (a : ArgumentDecl) (mark : ClassAttr) (s : State) :
    (markClassOf env a mark s).db = s.db := by
  unfold markClassOf
  split <;> rfl

theorem db_markHashable (env : Env) (s : State) : (markHashable env s).db = s.db := by
  refine db_foldl (fun t d => ?_) _ s
  split
  · exact db_markClassOf ..
  · rfl

theorem db_markPrintable (env : Env) (s : State) : (markPrintable env s).db = s.db := by
  refine db_foldl (fun t d => ?_) _ s
  split
  · split
    · exact db_markClassOf ..
    · rfl
  · rfl

theorem db_judge (s : State) (env : Env) (p : Place) (d : FunctionDecl) :
    (s.judge env p d).2.db = s.db := by
  unfold State.judge
  dsimp only
  split <;> exact s.db_warnAll _

theorem db_addOperator (env : Env) (s : State) (d : FunctionDecl) :
    (addOperator env s d).db = s.db := by
  unfold addOperator
  split
  · rfl
  · split
    · rfl
    · next home _ _ =>
      have hjudged := db_judge s env ⟨some home, []⟩ d
      split
      · next g t hjudge =>
        rw [hjudge] at hjudged
        split <;> exact hjudged
      · next t _ hjudge =>
        rw [hjudge] at hjudged
        exact hjudged

theorem db_addStreamOperator (env : Env) (s : State) (d : FunctionDecl) :
    (addStreamOperator env s d).db = s.db := by
  unfold addStreamOperator
  split
  · split
    · next streamed _ _ =>
      have hjudged := db_judge s env ⟨some streamed, []⟩ d
      split
      · rfl
      · split
        · next g t hjudge =>
          rw [hjudge] at hjudged
          split <;> exact hjudged
        · next t _ hjudge =>
          rw [hjudge] at hjudged
          exact hjudged
    · rfl
  · rfl

theorem db_addOperators (env : Env) (s : State) : (addOperators env s).db = s.db :=
  (db_foldl (db_addStreamOperator env) _ _).trans (db_foldl (db_addOperator env) _ s)

theorem sameMods_complete (env : Env) (s : State) :
    (settleAll env s).db.SameMods (complete env s).db ∧
      (settleAll env s).db.KeepsMods (complete env s).db := by
  let t := if env.config.addDefaultConstructors then addImplicitAll (settleAll env s)
    else settleAll env s
  have himplicit : t.db = (settleAll env s).db := by
    show (if env.config.addDefaultConstructors then _ else _ : State).db = _
    split <;> rfl
  have hcomplete : (complete env s).db = (checkEntries t).db := by
    unfold complete checkMods
    rw [State.db_warnAll, db_addOperators, db_markPrintable, db_markHashable]
  rw [hcomplete, ← himplicit]
  exact ⟨sameMods_checkEntries t, .of_grows (checkEntries_evolves (h := env.header) t).db⟩

/-! ### What follows the sorting -/

theorem db_addConversions (s : State) (i : ClassId) : (addConversions s i).db = s.db := by
  refine db_foldl (fun t k => ?_) _ s
  unfold addConversion
  split
  · rfl
  · split
    · rfl
    · split <;> rfl

theorem db_linkCopies (classes : List ClassId) (s : State) :
    (linkCopies classes s).db = s.db := by
  refine db_foldl (fun t i => ?_) classes s
  exact db_addConversions _ i

theorem db_orderInner (classes : List ClassId) (s : State) :
    Outcome (Keeps fun t => t.db = s.db) (fun _ _ => True) (orderInner classes) s := by
  refine Outcome.forM fun i _ t _ => .get_bind ?_
  dsimp only
  split
  · split
    · exact .set id
    · exact .throw trivial
  · exact .pure _

theorem db_fillGlobalAdded (env : Env) (s : State) :
    Outcome (Keeps fun t => t.db = s.db) (fun _ _ => True) (fillGlobalAdded env) s := by
  refine .get_bind (Outcome.forM fun a _ t _ => ?_)
  exact (makeAdded_keeps (fun t ws h => (t.db_warnAll ws).trans h) none a).andThen
    fun f u => .modify id

/-- The rules that an assembly leaves modify functions as those do with which it completes the
classes. -/
theorem sameMods_of_stages {env : Env} {classes : List ClassId} {s t u : State}
    (hinner : orderInner classes (linkCopies classes (complete env s)) = .ok () t)
    (hadded : fillGlobalAdded env t = .ok () u) :
    (settleAll env s).db.SameMods u.db ∧ (settleAll env s).db.KeepsMods u.db := by
  have hordered : t.db = (complete env s).db :=
    ((db_orderInner classes _).of_ok hinner rfl).trans (db_linkCopies classes _)
  have hfilled : u.db = t.db := (db_fillGlobalAdded env t).of_ok hadded rfl
  rw [hfilled, hordered]
  exact sameMods_complete env s

end BindingModel.Assembly
