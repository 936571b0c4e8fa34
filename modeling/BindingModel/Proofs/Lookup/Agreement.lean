import BindingModel.Lookup.Binding
import BindingModel.Proofs.Assembly.Evolution
import BindingModel.Proofs.Rule.SameRules

/-! What the binding of types depends on: the rules, the header, what the classes were created with
and their enums, and the limits. -/
namespace BindingModel
open Api

namespace Lookup

/-- Both have the same rules, header and limits, and the classes of both were created with the same
and have the same enums. -/
structure Agrees (l m : Lookup) : Prop where
  rules : l.db.SameRules m.db
  header : l.header? = m.header?
  registry : l.registry? = m.registry?
  head : ∀ i, (l.store.get i).head = (m.store.get i).head
  enums : ∀ i, (l.store.get i).enums = (m.store.get i).enums
  globalEnums : l.globalEnums = m.globalEnums
  maxScopeDepth : l.maxScopeDepth = m.maxScopeDepth
  maxTemplateDepth : l.maxTemplateDepth = m.maxTemplateDepth

namespace Agrees
variable {l m : Lookup} (h : l.Agrees m)
include h

/-! ### Names -/

theorem qualifiedName (i : ClassId) :
    (l.store.get i).qualifiedName = (m.store.get i).qualifiedName :=
  congrArg Entry.name (BoundClass.entry_eq_of_head (h.head i))

theorem name (i : ClassId) : (l.store.get i).name = (m.store.get i).name :=
  congrArg Entry.localName (BoundClass.entry_eq_of_head (h.head i))

theorem findByName? (r : Registry) : r.findByName? l.store = r.findByName? m.store := by
  funext name
  unfold Registry.findByName?
  simp only [h.qualifiedName]

theorem findInScopes? : l.findInScopes? = m.findInScopes? := by
  funext name scope
  unfold Lookup.findInScopes?
  rw [h.maxScopeDepth, h.rules.findType?]

theorem findClass? : l.findClass? = m.findClass? := by
  funext name context?
  unfold Lookup.findClass?
  simp only [h.registry, h.findByName?, h.qualifiedName, h.name, h.maxScopeDepth]

theorem findInClass? : l.findInClass? = m.findInClass? := by
  funext name c
  have hbases : (l.store.get c).baseNames = (m.store.get c).baseNames :=
    congrArg ClassHead.baseNames (h.head c)
  unfold Lookup.findInClass?
  simp only [h.findInScopes?, h.findClass?, h.qualifiedName, hbases]

theorem meaning? : l.meaning? = m.meaning? := by
  funext name localName class?
  have hparams : ∀ c, (l.store.get c).templateParams = (m.store.get c).templateParams :=
    fun c => congrArg ClassHead.templateParams (h.head c)
  unfold Lookup.meaning?
  rw [h.findInClass?, h.rules.findType?, h.rules.findFlags?, h.rules.findContainer?]
  simp only [hparams]

theorem value? : l.value? = m.value? := by
  funext expression
  unfold Lookup.value?
  simp only [h.registry, h.enums, h.globalEnums, h.rules.named]

/-! ### Types -/

theorem wrapArrays (written : String) (element : BoundType) (dims : List String) :
    l.wrapArrays written element dims = m.wrapArrays written element dims := by
  induction dims with
  | nil => rfl
  | cons dim dims ih =>
    unfold Lookup.wrapArrays
    rw [ih, h.value?]

theorem bindArray : l.bindArray = m.bindArray := by
  funext self t
  unfold Lookup.bindArray
  simp only [h.wrapArrays]

theorem bindWritten : l.bindWritten = m.bindWritten := by
  funext self class? t
  unfold Lookup.bindWritten
  rw [h.bindArray, h.meaning?]

theorem bindAt (class? : Option ClassId) (scope : List String) (n : Nat) :
    l.bindAt class? scope n = m.bindAt class? scope n := by
  induction n with
  | zero =>
    funext t
    unfold Lookup.bindAt
    rw [h.maxTemplateDepth]
  | succ n ih =>
    funext t
    unfold Lookup.bindAt
    rw [ih, h.bindWritten, h.header, h.maxScopeDepth]

/-- Types are bound alike. -/
theorem bindType : l.bindType = m.bindType := by
  funext t class? scope
  unfold Lookup.bindType
  rw [h.bindAt, h.maxTemplateDepth]

end Agrees
end Lookup
end BindingModel
