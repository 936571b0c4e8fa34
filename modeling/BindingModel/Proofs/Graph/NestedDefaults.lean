import BindingModel.Proofs.Graph.Dependencies

/-! A constructor may have a default for a value of a class that is declared directly inside its
own. The default for a class further inside is a dependency, and it goes against the nesting. -/
namespace BindingModel.Api.ClassStore

/-- A link leads between two different classes of `all`. -/
structure Linked (s : ClassStore) (all : List ClassId) (x c : ClassId) : Prop where
  mem_left : x ∈ all
  mem_right : c ∈ all
  ne : x ≠ c
  link : s.Link c x

/-- A constructor of `c` has a declared default for a value of another class entry, and `x` is the
first class of `all` with that entry. -/
def HasDefaultOf (s : ClassStore) (all : List ClassId) (c x : ClassId) : Prop :=
  ∃ f ∈ (s.get c).functions, f.isConstructor = true ∧ ∃ a ∈ f.args,
    a.declaredDefault?.isSome = true ∧ a.type.usage = .value ∧ a.type.entry.isComplex = true ∧
    a.type.entry.same (s.get c).entry = false ∧
    all.find? (fun d => (s.get d).entry.same a.type.entry) = some x

/-- The first class is nested in the other, at any depth, and the classes around it up to there
are of `all`. -/
def Inside (s : ClassStore) (all : List ClassId) : ClassId → ClassId → Prop :=
  Relation.TransGen fun x c => c ∈ all ∧ s.enclosing? x = some c

variable {s : ClassStore} {all : List ClassId} {c x : ClassId}

theorem defaultsTo_iff :
    s.DefaultsTo all c x ↔ s.enclosing? x ≠ some c ∧ s.HasDefaultOf all c x :=
  Iff.rfl

theorem HasDefaultOf.mem (h : s.HasDefaultOf all c x) : x ∈ all := by
  obtain ⟨_, _, _, _, _, _, _, _, _, hfind⟩ := h
  exact List.mem_of_find?_eq_some hfind

/-- The default is for a class other than the one whose constructor has it. -/
theorem HasDefaultOf.ne (h : s.HasDefaultOf all c x) : x ≠ c := by
  obtain ⟨_, _, _, a, _, _, _, _, hother, hfind⟩ := h
  have hsame := List.find?_some hfind
  rintro rfl
  unfold Entry.same at hother hsame
  simp only [Bool.and_eq_true, beq_iff_eq] at hsame
  rw [← hsame.2] at hother
  simp [hsame.1] at hother

/-- Classes that are nested need those around them. -/
theorem Inside.needs (h : s.Inside all x c) (hx : x ∈ all) :
    c = x ∨ Relation.TransGen (s.Needs all) c x := by
  induction h with
  | @single c h =>
    by_cases hcx : c = x
    · exact .inl hcx
    · exact .inr (.single ⟨h.1, hx, hcx, .inl (.enclosing h.2)⟩)
  | @tail b c hxb h ih =>
    have hb : b ∈ all := by
      rcases Relation.TransGen.tail'_iff.mp hxb with ⟨_, -, hb⟩
      exact hb.1
    by_cases hcb : c = b
    · exact hcb ▸ ih
    · have hstep : s.Needs all c b := ⟨h.1, hb, hcb, .inl (.enclosing h.2)⟩
      rcases ih with rfl | hpath
      · exact .inr (.single hstep)
      · exact .inr (.head hstep hpath)

/-- Where defaults are for directly nested classes only, links are all that there is to honour. -/
theorem needs_of_direct (h : ∀ c ∈ all, ∀ x, s.HasDefaultOf all c x → s.enclosing? x = some c)
    (hneeds : s.Needs all x c) : s.Linked all x c := by
  obtain ⟨hx, hc, hne, hcause⟩ := hneeds
  rcases hcause with hlink | hdefault
  · exact ⟨hx, hc, hne, hlink⟩
  · obtain ⟨hout, hdefault⟩ := defaultsTo_iff.mp hdefault
    exact absurd (h c hc x hdefault) hout

/-- A default for a class further inside closes a cycle with the nesting. -/
theorem cyclic_of_deep (hc : c ∈ all) (hdefault : s.HasDefaultOf all c x)
    (hinside : s.Inside all x c) (hout : s.enclosing? x ≠ some c) : Cyclic (s.Needs all) := by
  have hx : x ∈ all := hdefault.mem
  have hstep : s.Needs all x c :=
    ⟨hx, hc, hdefault.ne, .inr (defaultsTo_iff.mpr ⟨hout, hdefault⟩)⟩
  have hpath := (hinside.needs hx).resolve_left hdefault.ne.symm
  exact ⟨x, .head hstep hpath⟩

/-- Without a cycle of links, the classes have an order where all defaults are for classes declared
directly inside the one that has them. They have none where a default is for a class nested deeper
in it. -/
theorem nested_defaults (s : ClassStore) (all : List ClassId) (hlinks : ¬ Cyclic (s.Linked all)) :
    ((∀ c ∈ all, ∀ x, s.HasDefaultOf all c x → s.enclosing? x = some c) →
      ∃ l, s.sortClasses all = .ok l ∧ s.Ordered all l) ∧
    (∀ c ∈ all, ∀ x, s.HasDefaultOf all c x → s.Inside all x c → s.enclosing? x ≠ some c →
      ∃ cycle, s.sortClasses all = .error (.cyclicDependency cycle)) := by
  constructor
  · intro hdirect
    refine sortClasses_eq_ok fun hcyclic => hlinks ?_
    exact hcyclic.mono fun _ _ h => needs_of_direct hdirect h
  · intro c hc x hdefault hinside hout
    exact sortClasses_eq_error (cyclic_of_deep hc hdefault hinside hout)

def innermost : Entry := ⟨some 2, "Outer::Mid::Inner", .complex .value {}⟩

/-- A default for a value of the innermost class. -/
def innermostDefault : Argument :=
  { Argument.make "inner" { entry := innermost, usage := .value } 0 with
    declaredDefault? := some "Inner()" }

/-- The class `user` has a constructor with that default. -/
def nestedFunctions (user i : ClassId) : List Function :=
  if i = user then [{ Function.make "create" .constructor with args := [innermostDefault] }] else []

/-- A class in a class in a class. -/
def nestedStore (user : ClassId) : ClassStore where
  classes := #[
    { entry := ⟨some 0, "Outer", .complex .value {}⟩, functions := nestedFunctions user 0 },
    { entry := ⟨some 1, "Outer::Mid", .complex .value {}⟩, enclosing? := some 0
      functions := nestedFunctions user 1 },
    { entry := innermost, enclosing? := some 1, functions := nestedFunctions user 2 }]

theorem nestedStore_linked (user : ClassId) : ¬ Cyclic ((nestedStore user).Linked [0, 1, 2]) := by
  refine Precedes.not_cyclic (l := [0, 1, 2]) (by decide) fun x c h => ?_
  obtain ⟨-, hc, -, hlink⟩ := h
  rw [link_iff] at hlink
  simp only [List.mem_cons, List.not_mem_nil, or_false] at hc
  rcases hc with rfl | rfl | rfl
  · have hnone : x ∈ ([] : List ClassId) := hlink
    cases hnone
  · obtain rfl : x = 0 := List.mem_singleton.mp hlink
    exact (by decide : [0, 1].Sublist [0, 1, 2])
  · obtain rfl : x = 1 := List.mem_singleton.mp hlink
    exact (by decide : [1, 2].Sublist [0, 1, 2])

theorem nestedStore_default {user c x : ClassId} (hc : c ∈ [0, 1, 2])
    (h : (nestedStore user).HasDefaultOf [0, 1, 2] c x) : c = user ∧ x = 2 := by
  obtain ⟨f, hf, -, a, ha, -, -, -, -, hfind⟩ := h
  have hfunctions : ((nestedStore user).get c).functions = nestedFunctions user c := by
    simp only [List.mem_cons, List.not_mem_nil, or_false] at hc
    rcases hc with rfl | rfl | rfl <;> rfl
  rw [hfunctions, nestedFunctions] at hf
  split at hf
  · next huser =>
    obtain rfl := List.mem_singleton.mp hf
    obtain rfl : a = innermostDefault := List.mem_singleton.mp ha
    have hlast : [0, 1, 2].find? (fun d => ((nestedStore user).get d).entry.same innermost) =
        some 2 := rfl
    exact ⟨huser, Option.some.inj (hfind.symm.trans hlast)⟩
  · cases hf

theorem nested_defaults_mid : ¬ Cyclic ((nestedStore 1).Linked [0, 1, 2]) ∧
    (∀ c ∈ [0, 1, 2], ∀ x, (nestedStore 1).HasDefaultOf [0, 1, 2] c x →
      (nestedStore 1).enclosing? x = some c) ∧
    ∃ l, (nestedStore 1).sortClasses [0, 1, 2] = .ok l ∧ (nestedStore 1).Ordered [0, 1, 2] l := by
  have hdirect : ∀ c ∈ [0, 1, 2], ∀ x, (nestedStore 1).HasDefaultOf [0, 1, 2] c x →
      (nestedStore 1).enclosing? x = some c := by
    intro c hc x h
    obtain ⟨rfl, rfl⟩ := nestedStore_default hc h
    rfl
  have hlinks := nestedStore_linked 1
  exact ⟨hlinks, hdirect, (nested_defaults (nestedStore 1) [0, 1, 2] hlinks).1 hdirect⟩

/-- The only default is for a class nested two levels inside the one that has it, and it keeps the
classes from being sorted. -/
theorem deep_default_cycle : ¬ Cyclic ((nestedStore 0).Linked [0, 1, 2]) ∧
    (∀ c ∈ [0, 1, 2], ∀ x, (nestedStore 0).HasDefaultOf [0, 1, 2] c x →
      (nestedStore 0).Inside [0, 1, 2] x c) ∧
    (nestedStore 0).sortClasses [0, 1, 2] =
      .error (.cyclicDependency "Outer -> Outer::Mid -> Outer::Mid::Inner -> Outer") := by
  refine ⟨nestedStore_linked 0, fun c hc x h => ?_, by rfl⟩
  obtain ⟨rfl, rfl⟩ := nestedStore_default hc h
  exact .tail (.single ⟨by decide, rfl⟩) (⟨by decide, rfl⟩ : 0 ∈ [0, 1, 2] ∧ _ = some 0)

end BindingModel.Api.ClassStore
