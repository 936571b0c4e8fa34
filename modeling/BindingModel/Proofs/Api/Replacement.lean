import BindingModel.Proofs.Api.Occurrences

/-! Which types have an instance, and what it is: the type with all of its placeholders replaced at
once. -/
namespace BindingModel.Api.BoundType

mutual

/-- How many levels of arguments a type has. -/
def nesting : BoundType → Nat
  | ⟨_, _, _, _, _, args, _, _, _, _, _⟩ => levels args

def levels : List BoundType → Nat
  | [] => 0
  | t :: ts => max (nesting t + 1) (levels ts)

end

mutual

/-- A type with each placeholder replaced by what it is bound to: entry and arguments are those of
the binding, indirections add up, and the qualifiers stay. -/
def substitute (bindings : List BoundType) : BoundType → BoundType
  | ⟨entry, c, v, p, r, args, element?, count?, usage, written, template?⟩ =>
    match entry.ordinal?.bind (bindings[·]?) with
    | some b =>
      ⟨b.entry, c, v, p + b.pointers, r, b.args, element?, count?, usage, written, template?⟩
    | none =>
      ⟨entry, c, v, p, r, substituteEach bindings args, element?, count?, usage, written, template?⟩

def substituteEach (bindings : List BoundType) : List BoundType → List BoundType
  | [] => []
  | t :: ts => substitute bindings t :: substituteEach bindings ts

end

/-- Nothing can take the place of the parameter: it is bound to nothing, or to void. -/
def Vacant (bindings : List BoundType) (k : Nat) : Prop :=
  bindings[k]? = none ∨ ∃ b, bindings[k]? = some b ∧ b.entry.isKind .void = true

variable {bindings : List BoundType} {n : Nat} {t u : BoundType}

theorem not_vacant_iff {k : Nat} :
    ¬ Vacant bindings k ↔ ∃ b, bindings[k]? = some b ∧ b.entry.isKind .void = false := by
  unfold Vacant
  cases bindings[k]? <;> simp

theorem nesting_eq (t : BoundType) : t.nesting = levels t.args := by
  obtain ⟨_, _, _, _, _, _, _, _, _, _, _⟩ := t
  rfl

theorem nesting_lt_of_mem {a : BoundType} (ha : a ∈ t.args) : a.nesting < t.nesting := by
  have hlevels : ∀ l : List BoundType, a ∈ l → a.nesting < levels l := by
    intro l hl
    induction l with
    | nil => cases hl
    | cons b l ih =>
      unfold levels
      rcases List.mem_cons.mp hl with rfl | hl
      · omega
      · have hrest := ih hl
        omega
  rw [nesting_eq t]
  exact hlevels t.args ha

/-! ### Equal types -/

mutual

theorem equal_self : (t : BoundType) → equal t t = true
  | ⟨_, _, _, _, _, args, element?, _, _, _, _⟩ => by
    simp [equal, equalList_self args, equalOption_self element?]

theorem equalList_self : (l : List BoundType) → equalList l l = true
  | [] => rfl
  | t :: ts => by simp [equalList, equal_self t, equalList_self ts]

theorem equalOption_self : (o : Option BoundType) → equalOption o o = true
  | none => rfl
  | some t => equal_self t

end

theorem equalList_of_forall₂ {l l' : List BoundType}
    (h : List.Forall₂ (fun a b => equal b a = true) l l') : equalList l' l = true := by
  induction h with
  | nil => rfl
  | cons hab _ ih => simp [equalList, hab, ih]

/-- Types that differ in nothing but their arguments and their origin are equal if the arguments
are. -/
theorem beq_of_args {args args' : List BoundType} (h : equalList args args' = true)
    (template? : Option BoundType) :
    (({ t with args, template? } : BoundType) == { t with args := args' }) = true := by
  show equal _ _ = true
  simp [equal, h, equalOption_self t.element?]

/-! ### Instances -/

/-- Where the arguments of a type have instances, the type with these is its instance. -/
theorem exists_instance_of_args (hentry : t.entry.ordinal? = none)
    {r : BoundType → BoundType → Prop}
    (h : ∀ a ∈ t.args, ∃ b, instantiateAt bindings n a = .ok b ∧ r a b) :
    ∃ args template?, instantiateAt bindings (n + 1) t = .ok { t with args, template? } ∧
      List.Forall₂ r t.args args := by
  obtain ⟨args, hargs, hr⟩ := Error.exists_mapM h
  unfold instantiateAt
  rw [hentry]
  by_cases hnone : t.args.isEmpty = true
  · refine ⟨[], t.template?, ?_, ?_⟩
    · obtain ⟨_, _, _, _, _, _, _, _, _, _, _⟩ := t
      obtain rfl := List.isEmpty_iff.mp hnone
      rfl
    · rw [List.isEmpty_iff.mp hnone]
      exact .nil
  · refine ⟨args, some t, ?_, hr⟩
    dsimp only
    rw [if_neg hnone, hargs]
    rfl

/-- A type without placeholders is its own instance. -/
theorem exists_instance_of_filled (ht : t.Filled) (hn : t.nesting < n) :
    ∃ u, instantiateAt bindings n t = .ok u ∧ (u == t) = true := by
  induction n generalizing t with
  | zero => cases hn
  | succ n ih =>
    obtain ⟨hentry, hargs⟩ := ht
    have hinner : ∀ a ∈ t.args, ∃ b, instantiateAt bindings n a = .ok b ∧ equal b a = true := by
      intro a ha
      have hless := nesting_lt_of_mem ha
      exact ih (hargs a ha) (by omega)
    obtain ⟨args, template?, hu, hequal⟩ := exists_instance_of_args hentry hinner
    refine ⟨_, hu, ?_⟩
    have hsame := beq_of_args (t := t) (equalList_of_forall₂ hequal) template?
    obtain ⟨_, _, _, _, _, _, _, _, _, _, _⟩ := t
    exact hsame

/-- What a type with an instance mentions is bound to something that can take its place. -/
theorem not_vacant_of_instantiateAt {k : Nat} (h : instantiateAt bindings n t = .ok u)
    (hk : t.Mentions k) : ¬ Vacant bindings k := by
  rw [not_vacant_iff]
  induction hk generalizing n u with
  | entry hk =>
    cases n with
    | zero => cases h
    | succ n =>
      unfold instantiateAt at h
      rw [hk] at h
      dsimp only at h
      split at h
      · cases h
      · next b hb =>
        split at h
        · cases h
        · next hvoid => exact ⟨b, hb, Bool.eq_false_iff.mpr hvoid⟩
  | arg hentry ha _ ih =>
    cases n with
    | zero => cases h
    | succ n =>
      unfold instantiateAt at h
      rw [hentry] at h
      dsimp only at h
      rw [if_neg fun hnone => List.not_mem_nil (List.isEmpty_iff.mp hnone ▸ ha)] at h
      obtain ⟨args, hargs, -⟩ := Error.bind_eq_ok h
      obtain ⟨b, -, hb⟩ := Error.exists_of_mem_forall₂ (Error.forall₂_of_mapM hargs).flip ha
      exact ih hb

theorem substituteEach_eq (l : List BoundType) :
    substituteEach bindings l = l.map (substitute bindings) := by
  induction l with
  | nil => rfl
  | cons t l ih => rw [substituteEach, ih, List.map_cons]

/-- Where everything that it mentions can be replaced, a type has an instance, if the levels that
are left suffice for it with a binding in place of its innermost arguments. -/
theorem exists_instance (hbindings : ∀ b ∈ bindings, b.Filled)
    (ht : ∀ k, t.Mentions k → ¬ Vacant bindings k) (hn : t.nesting < n)
    (hdepth : ∀ b ∈ bindings, t.nesting + b.nesting + 1 < n) :
    ∃ u, instantiateAt bindings n t = .ok u ∧ (u == t.substitute bindings) = true := by
  induction n generalizing t with
  | zero => cases hn
  | succ n ih =>
    cases hentry : t.entry.ordinal? with
    | some k =>
      obtain ⟨b, hb, hvoid⟩ := not_vacant_iff.mp (ht k (.entry hentry))
      have hmem : b ∈ bindings := List.mem_of_getElem? hb
      obtain ⟨hplain, hargs⟩ := hbindings b hmem
      have hfilled : (t.replacePlaceholder b).Filled := ⟨hplain, hargs⟩
      have hless : (t.replacePlaceholder b).nesting < n := by
        have hdeep := hdepth b hmem
        rw [nesting_eq b] at hdeep
        rw [nesting_eq]
        show levels b.args < n
        omega
      obtain ⟨u, hu, hequal⟩ : ∃ u, instantiateAt bindings n (t.replacePlaceholder b) = .ok u ∧
          (u == t.replacePlaceholder b) = true := exists_instance_of_filled hfilled hless
      refine ⟨u, ?_, ?_⟩
      · unfold instantiateAt
        simp only [hentry, hb, hvoid]
        exact hu
      · obtain ⟨entry, _, _, _, _, _, _, _, _, _, _⟩ := t
        obtain ⟨_, _, _, _, _, _, _, _, _, _, _⟩ := u
        have hentry : entry.ordinal? = some k := hentry
        show equal _ (substitute bindings _) = true
        simp only [substitute, hentry, Option.bind_some, hb]
        exact hequal
    | none =>
      have hinner : ∀ a ∈ t.args, ∃ b, instantiateAt bindings n a = .ok b ∧
          equal b (a.substitute bindings) = true := by
        intro a ha
        have hless := nesting_lt_of_mem ha
        refine ih (fun k hk => ht k (.arg hentry ha hk)) (by omega) fun b hb => ?_
        have hdeep := hdepth b hb
        omega
      obtain ⟨args, template?, hu, hequal⟩ := exists_instance_of_args hentry hinner
      have hargs : equalList args (t.args.map (substitute bindings)) = true :=
        equalList_of_forall₂ (List.forall₂_map_left_iff.mpr hequal)
      have hsubstitute : t.substitute bindings =
          { t with args := t.args.map (substitute bindings) } := by
        obtain ⟨entry, _, _, _, _, _, _, _, _, _, _⟩ := t
        have hentry : entry.ordinal? = none := hentry
        simp only [substitute, hentry, Option.bind_none, substituteEach_eq]
      rw [hsubstitute]
      exact ⟨_, hu, beq_of_args hargs template?⟩

/-- With levels enough for a type with a binding in place of its innermost argument, the type has no
instance exactly if it mentions a parameter that nothing can take the place of. Any instance is
equal to the type with its placeholders replaced at once, and no placeholder is left in it where
none is in the elements of arrays. -/
theorem placeholders_replaced (bindings : List BoundType) (maxDepth : Nat) (t : BoundType)
    (hbindings : ∀ b ∈ bindings, b.Concrete) (hnesting : t.nesting < maxDepth)
    (hdepth : ∀ b ∈ bindings, t.nesting + b.nesting < maxDepth) :
    ((∃ e, instantiate bindings maxDepth t = .error e) ↔
      ∃ k, t.Mentions k ∧ Vacant bindings k) ∧
    ∀ u, instantiate bindings maxDepth t = .ok u →
      (u == t.substitute bindings) = true ∧ (t.ConcreteElements → u.Concrete) := by
  have hexists : (∀ k, t.Mentions k → ¬ Vacant bindings k) →
      ∃ u, instantiate bindings maxDepth t = .ok u ∧ (u == t.substitute bindings) = true := by
    intro ht
    refine exists_instance (fun b hb => (hbindings b hb).filled) ht (by omega) fun b hb => ?_
    have hdeep := hdepth b hb
    omega
  refine ⟨⟨?_, ?_⟩, fun u hu => ?_⟩
  · rintro ⟨e, he⟩
    by_contra hnone
    obtain ⟨u, hu, -⟩ := hexists fun k hk hvacant => hnone ⟨k, hk, hvacant⟩
    cases he.symm.trans hu
  · rintro ⟨k, hk, hvacant⟩
    cases h : instantiate bindings maxDepth t with
    | error e => exact ⟨e, rfl⟩
    | ok u => exact absurd hvacant (not_vacant_of_instantiateAt h hk)
  · obtain ⟨v, hv, hequal⟩ := hexists fun k hk => not_vacant_of_instantiateAt hu hk
    obtain rfl := Except.ok.inj (hu.symm.trans hv)
    have helements : ∀ b ∈ bindings, b.ConcreteElements := fun b hb => (hbindings b hb).elements
    exact ⟨hequal, (fills_of_instantiate helements hu).concrete⟩

/-- The entry of a primitive type. -/
def primitiveType (name : String) : BoundType := { entry := ⟨none, name, .primitive⟩ }

/-- The use of a container with arguments. -/
def containerOf (name : String) (args : List BoundType) : BoundType :=
  { entry := ⟨none, name, .complex .container {}⟩, args }

/-- `QMap<const K&, QList<V*>>` with two parameters. -/
def mapType : BoundType := containerOf "QMap"
  [{ entry := .placeholder "K" 0, isConst := true, ref := .lvalue },
   containerOf "QList" [{ entry := .placeholder "V" 1, pointers := 1 }]]

theorem placeholders_replaced_map :
    let list := containerOf "QList" [primitiveType "double"]
    (∃ u, instantiate [primitiveType "int", { list with pointers := 1 }] 4 mapType = .ok u ∧
      (u == containerOf "QMap"
        [{ primitiveType "int" with isConst := true, ref := .lvalue },
         containerOf "QList" [{ list with pointers := 2 }]]) = true) ∧
    ∃ e, instantiate [primitiveType "int", { entry := ⟨none, "void", .void⟩, pointers := 1 }] 4
      mapType = .error e := by
  have hplain : ∀ {t : BoundType}, t.entry.ordinal? = none → t.args = [] → t.element? = none →
      t.Concrete := by
    intro t hentry hargs helement
    exact ⟨hentry, by simp [hargs], by simp [helement]⟩
  have hlist : BoundType.Concrete
      { containerOf "QList" [primitiveType "double"] with pointers := 1 } := by
    refine ⟨rfl, fun a ha => ?_, fun _ he => nomatch he⟩
    obtain rfl := List.mem_singleton.mp ha
    exact hplain rfl rfl rfl
  constructor
  · have hspec := placeholders_replaced
      [primitiveType "int", { containerOf "QList" [primitiveType "double"] with pointers := 1 }] 4
      mapType (by simpa using ⟨hplain rfl rfl rfl, hlist⟩) (by decide) (by decide)
    exact ⟨_, rfl, (hspec.2 _ rfl).1⟩
  · have hspec := placeholders_replaced
      [primitiveType "int", { entry := ⟨none, "void", .void⟩, pointers := 1 }] 4
      mapType (by simpa using ⟨hplain rfl rfl rfl, hplain rfl rfl rfl⟩) (by decide) (by decide)
    refine hspec.1.mpr ⟨1, ?_, .inr ⟨_, rfl, rfl⟩⟩
    have hinner : Mentions 1
        (containerOf "QList" [{ entry := .placeholder "V" 1, pointers := 1 }]) :=
      .arg rfl (List.mem_singleton_self _) (.entry rfl)
    exact .arg rfl (List.mem_cons_of_mem _ (List.mem_singleton_self _)) hinner

end BindingModel.Api.BoundType
