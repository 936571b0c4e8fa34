import BindingModel.Spelled

/-! Policies on exceptions, threads and ownership. -/
namespace BindingModel

inductive ExceptionHandling
  | unspecified
  | off
  | autoDefaultToOff
  | autoDefaultToOn
  | on
  deriving DecidableEq, Repr, Inhabited

instance : Spelled ExceptionHandling where
  table :=
    [(.unspecified, "Unspecified"), (.off, "Off"), (.autoDefaultToOff, "AutoDefaultToOff"),
     (.autoDefaultToOn, "AutoDefaultToOn"), (.on, "On")]

inductive AllowThread
  | unspecified
  | allow
  | disallow
  | auto
  deriving DecidableEq, Repr, Inhabited

instance : Spelled AllowThread where
  table :=
    [(.unspecified, "Unspecified"), (.allow, "Allow"), (.disallow, "Disallow"), (.auto, "Auto")]

inductive Ownership
  | targetLang
  | cpp
  | default
  deriving DecidableEq, Repr

instance : Spelled Ownership where
  table :=
    [(.targetLang, "TargetLangOwnership"), (.cpp, "CppOwnership"), (.default, "DefaultOwnership")]

/-- The pair of policies that classes and functions carry. -/
structure Policies where
  exceptionHandling : ExceptionHandling := .unspecified
  allowThread : AllowThread := .unspecified
  deriving DecidableEq, Repr, Inhabited

/-- Keep what is specified and take the rest from `fallback`, each policy on its own. -/
def Policies.orElse (p fallback : Policies) : Policies where
  exceptionHandling :=
    if p.exceptionHandling = .unspecified then fallback.exceptionHandling else p.exceptionHandling
  allowThread := if p.allowThread = .unspecified then fallback.allowThread else p.allowThread

end BindingModel
