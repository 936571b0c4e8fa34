import BindingModel.Proofs.Assembly.Advance
import BindingModel.Proofs.Assembly.Visits

/-! The first stage of an assembly, step by step, and the scopes of the header that it opens. -/
namespace BindingModel
open Api Header

/-- More segments make a longer name. -/
theorem Text.length_qualified_lt {segs : List String} (h : segs ≠ []) (seg : String)
    (rest : List String) : (qualified segs).length < (qualified (segs ++ seg :: rest)).length := by
  unfold qualified
  induction segs with
  | nil => exact absurd rfl h
  | cons first segs ih =>
    cases segs with
    | nil =>
      rw [List.singleton_append, joinWith, joinWith]
      simp only [String.length_append]
      have hseparator : "::".length = 2 := rfl
      omega
    | cons second segs =>
      have hrest := ih (List.cons_ne_nil _ _)
      rw [List.cons_append] at hrest ⊢
      rw [List.cons_append, joinWith, joinWith]
      simp only [String.length_append]
      exact Nat.add_lt_add_left hrest _

/-! ### The scopes of a header -/

namespace Header

/-- A name inside a scope, if there is one around it. -/
def within (outer? : Option String) (name : String) : String :=
  match outer? with
  | some outer => outer ++ "::" ++ name
  | none => name

mutual

/-- The enums of a class and of the classes inside it, each with the name of its scope. -/
def ClassDecl.enumsIn (outer? : Option String) : ClassDecl → List (String × EnumDecl)
  | ⟨decls, classes, _, _, _, _⟩ =>
    let scope := within outer? (Text.withoutArguments decls.name)
    decls.enums.map (scope, ·) ++ enumsInClasses (some scope) classes

def enumsInClasses (outer? : Option String) : List ClassDecl → List (String × EnumDecl)
  | [] => []
  | d :: ds => d.enumsIn outer? ++ enumsInClasses outer? ds

end

mutual

def NamespaceDecl.enumsIn (outer? : Option String) : NamespaceDecl → List (String × EnumDecl)
  | ⟨decls, classes, namespaces⟩ =>
    let scope := within outer? decls.name
    decls.enums.map (scope, ·) ++ enumsInClasses (some scope) classes ++
      enumsInNamespaces (some scope) namespaces

def enumsInNamespaces (outer? : Option String) : List NamespaceDecl → List (String × EnumDecl)
  | [] => []
  | d :: ds => d.enumsIn outer? ++ enumsInNamespaces outer? ds

end

/-- What a class or namespace declares, with the names of the scopes down to it. -/
structure Block where
  path : List String
  decls : Declarations

namespace Block
variable {path : List String} {name : String} {b : Block}

/-- The key of the scope that the block opens. -/
def key (b : Block) : String := Text.qualified b.path

/-- The block is inside the scope with that path. -/
def Inside (path : List String) (b : Block) : Prop :=
  ∃ inner rest, b.path = path ++ inner :: rest

theorem Inside.outer (h : b.Inside (path ++ [name])) : b.Inside path := by
  obtain ⟨inner, rest, hpath⟩ := h
  exact ⟨name, inner :: rest, by rw [hpath, List.append_assoc, List.singleton_append]⟩

/-- A scope has another key than those inside it, which are longer. -/
theorem Inside.key_ne (h : b.Inside path) (hpath : path ≠ []) : b.key ≠ Text.qualified path := by
  obtain ⟨inner, rest, hb⟩ := h
  have hlonger := Text.length_qualified_lt hpath inner rest
  rw [← hb] at hlonger
  intro heq
  rw [show Text.qualified b.path = _ from heq] at hlonger
  exact Nat.lt_irrefl _ hlonger

end Block
end Header

/-- All enums of a header, each with the name of its scope. -/
def Header.enumsIn (h : Header) : List (String × EnumDecl) :=
  h.global.decls.enums.map ("", ·) ++ enumsInClasses none h.global.classes ++
    enumsInNamespaces none h.global.namespaces

namespace Assembly

def Origin.block? : Origin → Option Block
  | .ofClass p d => some ⟨p.path ++ [Text.withoutArguments d.name], d.decls⟩
  | .ofNamespace p d => some ⟨p.path ++ [d.name], d.decls⟩
  | .ofTypedef _ _ => none
  | .ofRule _ => none

/-- The block that a visit comes to and the class that it creates for it. -/
def Visit.opened? (env : Env) (v : Visit) : Option (Block × ClassId) :=
  v.origin.block?.bind fun b => (v.class? env).map (b, ·)

/-- The blocks that visits open scopes for, each with the class that is created for it. -/
def openings (env : Env) (vs : List Visit) : List (Block × ClassId) :=
  vs.filterMap (·.opened? env)

section
variable {env : Env} {v : Visit}

theorem openings_append (vs ws : List Visit) :
    openings env (vs ++ ws) = openings env vs ++ openings env ws :=
  List.filterMap_append

theorem openings_cons_none (h : v.opened? env = none) (vs : List Visit) :
    openings env (v :: vs) = openings env vs :=
  List.filterMap_cons_none h

theorem openings_cons_some {o : Block × ClassId} (h : v.opened? env = some o) (vs : List Visit) :
    openings env (v :: vs) = o :: openings env vs :=
  List.filterMap_cons_some h

theorem mem_openings {vs : List Visit} {o : Block × ClassId} (h : o ∈ openings env vs) :
    ∃ v ∈ vs, v.origin.block? = some o.1 ∧ v.class? env = some o.2 := by
  obtain ⟨v, hv, hopened⟩ := List.mem_filterMap.mp h
  obtain ⟨b, hb, hclass⟩ := Option.bind_eq_some_iff.mp hopened
  obtain ⟨c, hc, rfl⟩ := Option.map_eq_some_iff.mp hclass
  exact ⟨v, hv, hb, hc⟩

end

/-! ### Where visits are -/

/-- What a visit comes to is inside the scope with that path. -/
def Visit.Inside (path : List String) (v : Visit) : Prop :=
  ∀ b, v.origin.block? = some b → b.Inside path

theorem Visit.inside_self {path : List String} {v : Visit} {name : String} {d : Declarations}
    (h : v.origin.block? = some ⟨path ++ [name], d⟩) : v.Inside path := by
  intro b hb
  obtain rfl := Option.some.inj (h.symm.trans hb)
  exact ⟨name, [], rfl⟩

theorem inside_visitsEach {α : Type} {origin : α → Origin} (horigin : ∀ a, (origin a).block? = none)
    {env : Env} {path : List String} {file : ClassId → State → State} {l : List α} {s : State} :
    ∀ v ∈ visitsEach env origin file l s, v.Inside path := by
  induction l generalizing s with
  | nil => exact fun _ h => absurd h List.not_mem_nil
  | cons a l ih =>
    intro v hv
    rcases List.mem_cons.mp hv with rfl | hv
    · intro b hb
      cases (horigin a).symm.trans hb
    · exact ih v hv

mutual

theorem inside_visitsClass (env : Env) (p : Place) (s : State) : (d : ClassDecl) →
    ∀ v ∈ visitsClass env p d s, v.Inside p.path
  | ⟨decls, classes, bases, templateParams, isFinal, properties⟩, v, hv => by
    cases hentry : (⟨.ofClass p ⟨decls, classes, bases, templateParams, isFinal, properties⟩,
        s⟩ : Visit).accepted? with
    | none =>
      rw [visitsClass_rejected hentry] at hv
      rw [List.mem_singleton.mp hv]
      exact Visit.inside_self rfl
    | some entry =>
      rw [visitsClass_accepted hentry] at hv
      rcases List.mem_cons.mp hv with rfl | hv
      · exact Visit.inside_self rfl
      · rcases List.mem_append.mp hv with hv | hv
        · intro b hb
          exact (inside_visitsClasses env _ _ _ classes v hv b hb).outer
        · exact inside_visitsEach (fun _ => rfl) v hv

theorem inside_visitsClasses (env : Env) (p : Place) (file : ClassId → State → State) (s : State) :
    (l : List ClassDecl) → ∀ v ∈ visitsClasses env p file l s, v.Inside p.path
  | [], _, hv => absurd hv List.not_mem_nil
  | d :: ds, v, hv => by
    unfold visitsClasses at hv
    rcases List.mem_append.mp hv with hv | hv
    · exact inside_visitsClass env p s d v hv
    · exact inside_visitsClasses env p file _ ds v hv

end

mutual

theorem inside_visitsNamespace (env : Env) (p : Place) (s : State) : (d : NamespaceDecl) →
    ∀ v ∈ visitsNamespace env p d s, v.Inside p.path
  | ⟨decls, classes, namespaces⟩, v, hv => by
    cases hentry : (⟨.ofNamespace p ⟨decls, classes, namespaces⟩, s⟩ : Visit).accepted? with
    | none =>
      rw [visitsNamespace_rejected hentry] at hv
      rw [List.mem_singleton.mp hv]
      exact Visit.inside_self rfl
    | some entry =>
      rw [visitsNamespace_accepted hentry] at hv
      rcases List.mem_cons.mp hv with rfl | hv
      · exact Visit.inside_self rfl
      · rcases List.mem_append.mp hv with hv | hv
        · rcases List.mem_append.mp hv with hv | hv
          · intro b hb
            exact (inside_visitsClasses env _ _ _ classes v hv b hb).outer
          · exact inside_visitsEach (fun _ => rfl) v hv
        · intro b hb
          exact (inside_visitsNamespaces env _ _ _ namespaces v hv b hb).outer

theorem inside_visitsNamespaces (env : Env) (p : Place) (file : ClassId → State → State)
    (s : State) : (l : List NamespaceDecl) →
    ∀ v ∈ visitsNamespaces env p file l s, v.Inside p.path
  | [], _, hv => absurd hv List.not_mem_nil
  | d :: ds, v, hv => by
    unfold visitsNamespaces at hv
    rcases List.mem_append.mp hv with hv | hv
    · exact inside_visitsNamespace env p s d v hv
    · exact inside_visitsNamespaces env p file _ ds v hv

end

/-! ### Places -/

/-- The class around a place is there and has that name. -/
structure Place.At (p : Place) (outer? : Option String) (s : State) : Prop where
  live : ∀ i, p.class? = some i → i < s.store.classes.size
  name : p.class?.map (fun i => (s.store.get i).qualifiedName) = outer?

namespace Place.At
variable {p : Place} {outer? : Option String} {s t : State}

theorem qualify (h : p.At outer? s) (name : String) :
    p.qualify s.store name = within outer? name := by
  rw [← h.name]
  unfold Place.qualify
  cases p.class? <;> rfl

theorem keep (h : p.At outer? s) (hkeep : s.store.classes.size ≤ t.store.classes.size ∧
    ∀ i < s.store.classes.size, (t.store.get i).head = (s.store.get i).head) :
    p.At outer? t := by
  refine ⟨fun i hi => Nat.lt_of_lt_of_le (h.live i hi) hkeep.1, ?_⟩
  rw [← h.name]
  cases hp : p.class? with
  | none => rfl
  | some i =>
    have hentry := BoundClass.entry_eq_of_head (hkeep.2 i (h.live i hp))
    exact congrArg (fun e => some (Entry.name e)) hentry

theorem global (s : State) : Place.At {} none s := ⟨nofun, rfl⟩

end Place.At

/-! ### Declaring -/

/-- The first pass takes the steps of its stage and opens scopes. -/
def Declaring (D : List (String × EnumDecl)) : State → State → Prop :=
  Relation.ReflTransGen fun s t => Step D s .declaring t ∨ ∃ key c, t = openScope key c s

namespace Declaring
variable {D : List (String × EnumDecl)} {s t u : State}

theorem trans (h : Declaring D s t) (k : Declaring D t u) : Declaring D s u :=
  Relation.ReflTransGen.trans h k

theorem of_advances (h : Advances D .declaring s t) : Declaring D s t :=
  Relation.ReflTransGen.mono (fun _ _ => Or.inl) s t h

theorem keeps {I : State → Prop} (hstep : ∀ {s t}, Step D s .declaring t → I s → I t)
    (hopen : ∀ {s} key c, I s → I (openScope key c s)) (h : Declaring D s t) (hs : I s) : I t := by
  induction h with
  | refl => exact hs
  | tail _ h ih =>
    rcases h with h | ⟨key, c, rfl⟩
    · exact hstep h ih
    · exact hopen key c ih

theorem head (h : Declaring D s t) : s.store.classes.size ≤ t.store.classes.size ∧
    ∀ i < s.store.classes.size, (t.store.get i).head = (s.store.get i).head := by
  induction h with
  | refl => exact ⟨Nat.le_refl _, fun _ _ => rfl⟩
  | tail _ hstep ih =>
    rcases hstep with hstep | ⟨key, c, rfl⟩
    · obtain ⟨hsize, hhead⟩ := hstep.head
      refine ⟨Nat.le_trans ih.1 hsize, fun i hi => ?_⟩
      rw [hhead i (Nat.lt_of_lt_of_le hi ih.1), ih.2 i hi]
    · exact ih

/-- A class that is no typedef stays one. -/
theorem plain (h : Declaring D s t) {c : ClassId} (hlt : c < s.store.classes.size)
    (hplain : (s.store.get c).isTypedef = false) :
    c < t.store.classes.size ∧ (t.store.get c).isTypedef = false := by
  obtain ⟨hsize, hhead⟩ := h.head
  refine ⟨Nat.lt_of_lt_of_le hlt hsize, ?_⟩
  rw [← hplain]
  exact congrArg ClassHead.isTypedef (hhead c hlt)

end Declaring

/-- What a part of the first pass does: it opens the scopes of its visits, those of one key in
their order, for new classes that are no typedefs. -/
structure Opens (env : Env) (D : List (String × EnumDecl)) (vs : List Visit) (s t : State) :
    Prop where
  declaring : Declaring D s t
  scopes : ∀ key, t.scopes.filter (·.1 == key) =
    ((openings env vs).filter (·.1.key == key)).reverse.map (fun o => (o.1.key, o.2)) ++
      s.scopes.filter (·.1 == key)
  plain : ∀ o ∈ openings env vs, o.2 < t.store.classes.size ∧ (t.store.get o.2).isTypedef = false

namespace Opens
variable {env : Env} {D : List (String × EnumDecl)} {vs ws : List Visit} {s t u : State}

theorem of_advances (h : Advances D .declaring s t) : Opens env D [] s t := by
  refine ⟨.of_advances h, fun key => ?_, fun o ho => absurd ho List.not_mem_nil⟩
  rw [h.scopes]
  rfl

theorem trans (h : Opens env D vs s t) (k : Opens env D ws t u) :
    Opens env D (vs ++ ws) s u := by
  refine ⟨h.declaring.trans k.declaring, fun key => ?_, fun o ho => ?_⟩
  · rw [k.scopes, h.scopes, openings_append, List.filter_append, List.reverse_append,
      List.map_append, List.append_assoc]
  · rw [openings_append, List.mem_append] at ho
    rcases ho with ho | ho
    · obtain ⟨hlt, hplain⟩ := h.plain o ho
      exact k.declaring.plain hlt hplain
    · exact k.plain o ho

theorem andAdvances (h : Opens env D vs s t) (k : Advances D .declaring t u) :
    Opens env D vs s u := by
  have hrest : Opens env D (vs ++ []) s u := h.trans (.of_advances k)
  rwa [List.append_nil] at hrest

/-- The visit opens no scope of its own. -/
theorem unopened {v : Visit} (hv : v.opened? env = none) (h : Opens env D vs s t) :
    Opens env D (v :: vs) s t := by
  refine ⟨h.declaring, fun key => ?_, ?_⟩
  · rw [openings_cons_none hv]
    exact h.scopes key
  · rw [openings_cons_none hv]
    exact h.plain

/-- The visit creates a class, declares more in it and opens its scope at its end. -/
theorem opened {v : Visit} {b : Block} {c : ClassId} (hv : v.opened? env = some (b, c))
    (hinside : ∀ w ∈ vs, w.Inside b.path) (hpath : b.path ≠ [])
    (hnew : Advances D .declaring s t) (hlt : c < t.store.classes.size)
    (hplain : (t.store.get c).isTypedef = false) (h : Opens env D vs t u) :
    Opens env D (v :: vs) s (openScope b.key c u) := by
  have hwithin := (of_advances hnew).trans h
  refine ⟨hwithin.declaring.tail (.inr ⟨b.key, c, rfl⟩), fun key => ?_, fun o ho => ?_⟩
  · rw [openings_cons_some hv]
    show ((b.key, c) :: u.scopes).filter (·.1 == key) = _
    have hscopes : u.scopes.filter (·.1 == key) = _ := hwithin.scopes key
    rw [List.nil_append] at hscopes
    by_cases hkey : b.key = key
    · -- the scopes inside have other keys, so that it does not matter that they came first
      have hnone : (openings env vs).filter (·.1.key == key) = [] := by
        refine List.filter_eq_nil_iff.mpr fun o ho => ?_
        obtain ⟨w, hw, hblock, -⟩ := mem_openings ho
        have hne : o.1.key ≠ b.key := (hinside w hw _ hblock).key_ne hpath
        simpa [hkey] using hne
      rw [List.filter_cons_of_pos (by simpa using hkey), List.filter_cons_of_pos
        (by simpa using hkey), hscopes, hnone]
      rfl
    · rw [List.filter_cons_of_neg (by simpa using hkey), List.filter_cons_of_neg
        (by simpa using hkey), hscopes]
  · rw [openings_cons_some hv] at ho
    rcases List.mem_cons.mp ho with rfl | ho
    · exact h.declaring.plain hlt hplain
    · exact h.plain o ho

end Opens

/-! ### Functions of rules -/

section
variable {D : List (String × EnumDecl)} {k : Stage} {env : Env} {p : Place} {s : State}

theorem makeAdded_advances (class? : Option ClassId) (a : AddedFunction) :
    Outcome (Advances D k) (fun _ _ => True) (makeAdded env p class? a) s := by
  refine .get_bind ?_
  dsimp only
  split
  · exact .andThen (.set (.warnAll (.refl s) _)) fun _ _ => .pure _
  · exact .throw trivial

theorem fillAdded_advances {c : ClassId}
    (hk : k = .filling ∨
      k = .declaring ∧ c < s.store.classes.size ∧ (s.store.get c).isTypedef = true) :
    Outcome (Advances D k) (fun _ _ => True) (fillAdded env p c) s := by
  refine .get_bind ?_
  dsimp only
  split
  · exact .pure _
  · next rules _ =>
    refine Outcome.forM fun a _ t ht => ?_
    have hmake : Outcome (Advances D k) (fun _ _ => True) (makeAdded env p (some c) a) t :=
      makeAdded_advances (some c) a
    refine hmake.bind fun f u hrun => .modify ?_
    obtain ⟨ws, hadded, -⟩ := makeAdded_eq_ok hrun
    refine Advances.step (.refl u) (.addRule c (Draft.added_addedByRule hadded) ?_)
    refine hk.imp_right fun ⟨hdeclaring, hc, htypedef⟩ => ⟨hdeclaring, ?_⟩
    have hhead := (ht.trans (hmake.of_ok hrun)).head.2 c hc
    rwa [show (u.store.get c).isTypedef = _ from congrArg ClassHead.isTypedef hhead]

end

/-! ### Typedefs -/

theorem marks_public :
    ∀ a ∈ BoundClass.summaryMarks, (FlagSet.ofList [ClassAttr.pub]).has a = false := by
  decide

section
variable {D : List (String × EnumDecl)} {env : Env} {p : Place} {s : State}

/-- A typedef is created with the functions of its rules. -/
theorem createTypedef_opens {v : Visit} (hv : v.opened? env = none) (entry : Entry)
    (source : String) {t : State}
    (ht : Advances D .declaring (s.createClass (.typedef entry source)).2 t) :
    Build.Ensures (fun _ u => Opens env D [v] s u) (do
      fillAdded env p s.store.classes.size
      pure (some s.store.classes.size)) t := by
  have hnew : Advances D .declaring s (s.createClass (.typedef entry source)).2 :=
    (Advances.refl s).step (.create rfl rfl marks_public)
  have hsize : s.store.classes.size <
      (s.createClass (.typedef entry source)).2.store.classes.size := by
    show _ < (s.store.create _).2.classes.size
    rw [ClassStore.size_create]
    exact Nat.lt_succ_self _
  have htypedef : (t.store.get s.store.classes.size).isTypedef = true := by
    have hhead := ht.head.2 _ hsize
    have hcreated : (s.createClass (.typedef entry source)).2.store.get s.store.classes.size =
        .typedef entry source := s.store.get_create_self _
    rw [hcreated] at hhead
    exact congrArg ClassHead.isTypedef hhead
  have hfill : Outcome (Advances D .declaring) (fun _ _ => True)
      (fillAdded env p s.store.classes.size) t :=
    fillAdded_advances (.inr ⟨rfl, Nat.lt_of_lt_of_le hsize ht.head.1, htypedef⟩)
  refine hfill.ensures.bind fun _ u hu => .pure ?_
  exact .unopened hv (.of_advances ((hnew.trans ht).trans hu))

theorem declareTypedef_opens (d : TypedefDecl) :
    Build.Ensures (fun _ t => Opens env D [⟨.ofTypedef p d, s⟩] s t)
      (declareTypedef env p d) s := by
  have hquiet : ∀ {t : State}, Advances D .declaring s t →
      Opens env D [⟨.ofTypedef p d, s⟩] s t := fun h => .unopened rfl (.of_advances h)
  refine .get_bind ?_
  dsimp only
  split
  · next primitive _ =>
    split
    · split
      · exact .pure (hquiet (.refl s))
      · refine .modify_bind (.pure (hquiet ?_))
        exact (Advances.refl s).learn (.setReferenced _ primitive _)
    · exact .pure (hquiet (.refl s))
  · split
    · exact .pure (hquiet (.refl s))
    · next entry _ =>
      exact .set_bind (createTypedef_opens rfl entry _ (.applyInclude (.refl _) env entry d.file?))

theorem declareRuleTypedef_opens (e : Entry) :
    Build.Ensures (fun _ t => Opens env D [⟨.ofRule e, s⟩] s t) (declareRuleTypedef env e) s := by
  have hquiet : Opens env D [⟨.ofRule e, s⟩] s s := .unopened rfl (.of_advances (.refl s))
  refine .get_bind ?_
  dsimp only
  split
  · next target source _ _ =>
    split
    · exact .pure hquiet
    · exact .set_bind (createTypedef_opens rfl target source (.refl _))
  · exact .pure hquiet

end

/-! ### Lists of declarations -/

section
variable {D : List (String × EnumDecl)} {env : Env} {p : Place} {s : State} {vs ws : List Visit}
  {file : ClassId → State → State} (hfile : ∀ c s, Advances D .declaring s (file c s))

/-- What a part of the first pass opens, where it succeeds. -/
def OpensAll (env : Env) (D : List (String × EnumDecl)) (vs : List Visit) (m : Build Unit)
    (s : State) : Prop :=
  Build.Ensures (fun _ t => Opens env D vs s t) m s

theorem OpensAll.bind {α : Type} {q : α → State → Prop} {m : Build Unit} {f : Unit → Build α}
    (hm : OpensAll env D vs m s)
    (hf : Opens env D vs s (m.after s) → Build.Ensures q (f ()) (m.after s)) :
    Build.Ensures q (m >>= f) s :=
  .bind_after hm hf

theorem OpensAll.andThen {m n : Build Unit} (hm : OpensAll env D vs m s)
    (hn : Opens env D vs s (m.after s) → OpensAll env D ws n (m.after s)) :
    OpensAll env D (vs ++ ws) (m >>= fun _ => n) s :=
  hm.bind fun h => (hn h).mono fun _ _ => h.trans

include hfile in
theorem fileWith_opens {m : Build (Option ClassId)}
    (hm : Build.Ensures (fun _ t => Opens env D vs s t) m s) :
    OpensAll env D vs (fileWith file m) s := by
  refine hm.bind fun c? t h => ?_
  cases c? with
  | none => exact .pure h
  | some c => exact .modify (h.andAdvances (hfile c t))

include hfile in
theorem visitsEach_opens {α : Type} (origin : α → Origin)
    (hone : ∀ a s, Build.Ensures (fun _ t => Opens env D [⟨origin a, s⟩] s t)
      ((origin a).declare env) s) (l : List α) (s : State) :
    OpensAll env D (visitsEach env origin file l s)
      (l.forM fun a => fileWith file ((origin a).declare env)) s := by
  induction l generalizing s with
  | nil => exact .pure (.of_advances (.refl s))
  | cons a l ih =>
    show OpensAll env D ([⟨origin a, s⟩] ++ _) _ s
    exact (fileWith_opens hfile (hone a s)).andThen fun _ => ih _

include hfile in
theorem declareTypedefs_opens (l : List TypedefDecl) (s : State) :
    OpensAll env D (visitsEach env (.ofTypedef p) file l s) (declareTypedefs env p file l) s :=
  visitsEach_opens hfile (.ofTypedef p) (fun d _ => declareTypedef_opens d) l s

end

/-! ### Classes and namespaces -/

theorem name_of_classEntry {db : Database} {name : String} {e : Entry}
    (h : classEntry db name = .ok e) : e.name = name := by
  unfold classEntry at h
  split at h
  · cases h
  · split at h
    · next d hd =>
      split at h
      · cases h
      · obtain rfl := Except.ok.inj h
        exact (mem_entries_of_find? hd).2
    · split at h <;> cases h

/-- A new class is the place of what is inside it, once its enums are taken up. -/
theorem opened_advances {D : List (String × EnumDecl)} (env : Env) (p : Place) (s : State)
    (name : String) (new : BoundClass) {scope : String} {enums : List EnumDecl}
    (hscope : new.qualifiedName = scope) (hd : enums.map (scope, ·) ⊆ D)
    (hnew : Step D s .declaring (s.createClass new).2) :
    Advances D .declaring s (s.opened env new enums) ∧
      (p.enter s.store.classes.size name).At (some scope) (s.opened env new enums) ∧
      ((s.opened env new enums).store.get s.store.classes.size).isTypedef = new.isTypedef := by
  have hsize : s.store.classes.size < (s.createClass new).2.store.classes.size := by
    show _ < (s.store.create _).2.classes.size
    rw [ClassStore.size_create]
    exact Nat.lt_succ_self _
  have hcreated : (s.createClass new).2.store.get s.store.classes.size = new :=
    s.store.get_create_self new
  have hplace : (p.enter s.store.classes.size name).At (some scope) (s.createClass new).2 := by
    constructor
    · intro i hi
      obtain rfl := Option.some.inj hi
      exact hsize
    · show some ((s.createClass new).2.store.get s.store.classes.size).qualifiedName = _
      rw [hcreated, hscope]
  have henums : Advances D .declaring (s.createClass new).2 (s.opened env new enums) :=
    addEnums_advances env _ (fun d hmem => hd (List.mem_map_of_mem hmem)) hsize
      (by rw [hcreated, hscope])
  refine ⟨((Advances.refl s).step hnew).trans henums, hplace.keep henums.head, ?_⟩
  have hhead := henums.head.2 _ hsize
  rw [hcreated] at hhead
  exact congrArg ClassHead.isTypedef hhead

theorem marks_newClass (entry : Entry) (d : ClassDecl) :
    ∀ a ∈ BoundClass.summaryMarks, (newClass entry d).has a = false := by
  intro a ha
  have hcases : a = .abstract ∨ a = .hasEqualsOperator := by
    simpa [BoundClass.summaryMarks] using ha
  show (newClass entry d).attrs.has a = false
  unfold newClass
  rw [FlagSet.has_insertIf, FlagSet.has_insertIf, marks_public a ha]
  rcases hcases with rfl | rfl <;> simp

mutual

theorem declareClass_opens {D : List (String × EnumDecl)} (env : Env) {p : Place} {s : State}
    {outer? : Option String} (hp : p.At outer? s) : (d : ClassDecl) → d.enumsIn outer? ⊆ D →
      Build.Ensures (fun _ t => Opens env D (visitsClass env p d s) s t) (declareClass env p d) s
  | ⟨decls, classes, bases, templateParams, isFinal, properties⟩, hD => by
    refine Origin.ensures_declare
      (o := .ofClass p ⟨decls, classes, bases, templateParams, isFinal, properties⟩) ?_
    show Build.Ensures _ (declareClass env p _) s
    unfold declareClass
    refine .get_bind ?_
    dsimp only
    split
    · next hclass =>
      have hentry : (⟨.ofClass p ⟨decls, classes, bases, templateParams, isFinal, properties⟩,
          s⟩ : Visit).accepted? = none := by
        simp [Visit.accepted?, Origin.accepted?, ClassDecl.name, hclass, Except.toOption]
      rw [visitsClass_rejected hentry]
      refine .modify_bind (.pure fun hnone => .unopened ?_ (.of_advances ?_))
      · simp [Visit.opened?, Origin.block?, hnone]
      · exact (Advances.refl s).reject _ _
    · next entry hclass =>
      have hentry : (⟨.ofClass p ⟨decls, classes, bases, templateParams, isFinal, properties⟩,
          s⟩ : Visit).accepted? = some entry := by
        simp [Visit.accepted?, Origin.accepted?, ClassDecl.name, hclass, Except.toOption]
      rw [visitsClass_accepted hentry]
      rw [ClassDecl.enumsIn, List.append_subset] at hD
      obtain ⟨hopened, hplace, hplain⟩ := opened_advances env p s (Text.withoutArguments decls.name)
        (newClass entry ⟨decls, classes, bases, templateParams, isFinal, properties⟩)
        ((name_of_classEntry hclass).trans (hp.qualify _)) hD.1
        (.create rfl rfl (marks_newClass entry _))
      refine .set_bind ((declareInner_opens env hplace _ classes hD.2).bind fun hinner => ?_)
      have hfile : ∀ c (t : State), Advances D .declaring t
          ((t.modifyClass c (·.setEnclosing s.store.classes.size)).addClass c) := by
        intro c t
        have hedit := (Advances.refl (D := D) (k := .declaring) t).edit c
          (f := (·.setEnclosing s.store.classes.size)) fun _ => ⟨rfl, rfl, fun _ _ => rfl⟩
        exact hedit.addClass c
      refine (declareTypedefs_opens hfile decls.typedefs _).bind fun htypedefs => ?_
      refine .modify_bind (.modify_bind (.pure fun hsome => ?_))
      refine Opens.opened (b := ⟨p.path ++ [Text.withoutArguments decls.name], decls⟩) ?_
        (fun v hv => ?_) (by simp) hopened (hplace.live _ rfl) hplain
        ((hinner.trans htypedefs).andAdvances ?_)
      · simp [Visit.opened?, Origin.block?, hsome, ClassDecl.name]
      · rcases List.mem_append.mp hv with hv | hv
        · exact inside_visitsClasses env _ _ _ classes v hv
        · exact inside_visitsEach (fun _ => rfl) v hv
      · exact (addProperties_advances env _ _ properties _).applyInclude env entry decls.file?

theorem declareInner_opens {D : List (String × EnumDecl)} (env : Env) {p : Place} {s : State}
    {outer? : Option String} (hp : p.At outer? s) (parent : ClassId) :
    (l : List ClassDecl) → enumsInClasses outer? l ⊆ D →
      OpensAll env D (visitsClasses env p (adopt parent) l s) (declareInner env p parent l) s
  | [], _ => .pure (.of_advances (.refl s))
  | d :: ds, hD => by
    rw [enumsInClasses, List.append_subset] at hD
    rw [declareInner_cons]
    refine (fileWith_opens (adopt_advances parent) (declareClass_opens env hp d hD.1)).andThen
      fun h => ?_
    exact declareInner_opens env (hp.keep h.declaring.head) parent ds hD.2

end

mutual

theorem declareNamespace_opens {D : List (String × EnumDecl)} (env : Env) {p : Place} {s : State}
    {outer? : Option String} (hp : p.At outer? s) : (d : NamespaceDecl) → d.enumsIn outer? ⊆ D →
      Build.Ensures (fun _ t => Opens env D (visitsNamespace env p d s) s t)
        (declareNamespace env p d) s
  | ⟨decls, classes, namespaces⟩, hD => by
    refine Origin.ensures_declare (o := .ofNamespace p ⟨decls, classes, namespaces⟩) ?_
    show Build.Ensures _ (declareNamespace env p _) s
    have hrejected : ∀ {t : State}, (⟨.ofNamespace p ⟨decls, classes, namespaces⟩, s⟩ :
        Visit).accepted? = none → Advances D .declaring s t →
        (⟨.ofNamespace p ⟨decls, classes, namespaces⟩, s⟩ : Visit).class? env = none →
        Opens env D (visitsNamespace env p ⟨decls, classes, namespaces⟩ s) s t := by
      intro t hentry ht hnone
      rw [visitsNamespace_rejected hentry]
      refine .unopened ?_ (.of_advances ht)
      simp [Visit.opened?, Origin.block?, hnone]
    unfold declareNamespace
    refine .get_bind ?_
    dsimp only
    split
    · next hexcluded =>
      refine .modify_bind (.pure (hrejected ?_ ((Advances.refl s).reject _ _)))
      simp [Visit.accepted?, Origin.accepted?, NamespaceDecl.name, hexcluded]
    · next hunknown =>
      refine .modify_bind (.pure (hrejected ?_ ((Advances.refl s).warn _)))
      simp [Visit.accepted?, Origin.accepted?, NamespaceDecl.name, hunknown]
    · next entry hincluded hfound =>
      have hentry : (⟨.ofNamespace p ⟨decls, classes, namespaces⟩, s⟩ : Visit).accepted? =
          some entry := by
        simp [Visit.accepted?, Origin.accepted?, NamespaceDecl.name, hincluded, hfound]
      rw [visitsNamespace_accepted hentry]
      rw [NamespaceDecl.enumsIn, List.append_subset, List.append_subset] at hD
      obtain ⟨hopened, hplace, hplain⟩ := opened_advances env p s decls.name { entry }
        ((mem_entries_of_find? hfound).2.trans (hp.qualify _)) hD.1.1
        (.create rfl rfl marks_public)
      refine .set_bind ((declareInner_opens env hplace _ classes hD.1.2).bind fun hinner => ?_)
      refine (declareTypedefs_opens (D := D) (adopt_advances _) decls.typedefs _).bind
        fun htypedefs => ?_
      have hbefore := hinner.trans htypedefs
      refine (declareNamespaces_opens env (hplace.keep hbefore.declaring.head) _ namespaces
        hD.2).bind fun hnamespaces => ?_
      refine .modify_bind (.pure fun hsome => ?_)
      refine Opens.opened (b := ⟨p.path ++ [decls.name], decls⟩) ?_ (fun v hv => ?_) (by simp)
        hopened (hplace.live _ rfl) hplain ((hbefore.trans hnamespaces).andAdvances ?_)
      · simp [Visit.opened?, Origin.block?, hsome, NamespaceDecl.name]
      · rcases List.mem_append.mp hv with hv | hv
        · rcases List.mem_append.mp hv with hv | hv
          · exact inside_visitsClasses env _ _ _ classes v hv
          · exact inside_visitsEach (fun _ => rfl) v hv
        · exact inside_visitsNamespaces env _ _ _ namespaces v hv
      · exact (Advances.refl _).applyInclude env entry decls.file?

theorem declareNamespaces_opens {D : List (String × EnumDecl)} (env : Env) {p : Place}
    {s : State} {outer? : Option String} (hp : p.At outer? s) (parent : ClassId) :
    (l : List NamespaceDecl) → enumsInNamespaces outer? l ⊆ D →
      OpensAll env D (visitsNamespaces env p (adopt parent) l s)
        (declareNamespaces env p parent l) s
  | [], _ => .pure (.of_advances (.refl s))
  | d :: ds, hD => by
    rw [enumsInNamespaces, List.append_subset] at hD
    rw [declareNamespaces_cons]
    refine (fileWith_opens (adopt_advances parent)
      (declareNamespace_opens env hp d hD.1)).andThen fun h => ?_
    exact declareNamespaces_opens env (hp.keep h.declaring.head) parent ds hD.2

end

/-! ### The whole header -/

section
variable {D : List (String × EnumDecl)} {env : Env}

/-- Files by the kind of its entry. -/
theorem file_advances (c : ClassId) (s : State) : Advances D .declaring s (s.addClass c) :=
  (Advances.refl s).addClass c

theorem visitsClasses_opens {p : Place} {outer? : Option String} {l : List ClassDecl} {s : State}
    (hp : p.At outer? s) (hD : enumsInClasses outer? l ⊆ D) :
    OpensAll env D (visitsClasses env p (fun c s => s.addClass c) l s)
      (l.forM fun d => fileWith (fun c s => s.addClass c) (declareClass env p d)) s := by
  induction l generalizing s with
  | nil => exact .pure (.of_advances (.refl s))
  | cons d l ih =>
    rw [enumsInClasses, List.append_subset] at hD
    refine (fileWith_opens file_advances (declareClass_opens env hp d hD.1)).andThen fun h => ?_
    exact ih (hp.keep h.declaring.head) hD.2

theorem visitsNamespaces_opens {p : Place} {outer? : Option String} {l : List NamespaceDecl}
    {s : State} (hp : p.At outer? s) (hD : enumsInNamespaces outer? l ⊆ D) :
    OpensAll env D (visitsNamespaces env p (fun c s => s.addClass c) l s)
      (l.forM fun d => fileWith (fun c s => s.addClass c) (declareNamespace env p d)) s := by
  induction l generalizing s with
  | nil => exact .pure (.of_advances (.refl s))
  | cons d l ih =>
    rw [enumsInNamespaces, List.append_subset] at hD
    refine (fileWith_opens file_advances (declareNamespace_opens env hp d hD.1)).andThen
      fun h => ?_
    exact ih (hp.keep h.declaring.head) hD.2

theorem declareAll_opens (env : Env) (s : State) :
    OpensAll env env.header.enumsIn (visits env s) (declareAll env) s := by
  have hglobal : env.header.global.decls.enums.map ("", ·) ⊆ env.header.enumsIn := by
    unfold Header.enumsIn
    rw [List.append_assoc]
    exact List.subset_append_left _ _
  have hclassEnums : enumsInClasses none env.header.global.classes ⊆ env.header.enumsIn :=
    fun x hx => List.mem_append_left _ (List.mem_append_right _ hx)
  have hnamespaceEnums : enumsInNamespaces none env.header.global.namespaces ⊆ env.header.enumsIn :=
    List.subset_append_right _ _
  unfold declareAll
  rw [declareRuleTypedefs_eq]
  refine (visitsClasses_opens (.global s) hclassEnums).bind fun hclasses => ?_
  refine (visitsNamespaces_opens (.global _) hnamespaceEnums).bind fun hnamespaces => ?_
  refine .modify_bind ?_
  have htypedef : ∀ d t, Build.Ensures (fun _ u => Opens env env.header.enumsIn
      [⟨.ofTypedef {} d, t⟩] t u) (declareTypedef env {} d) t := fun d _ => declareTypedef_opens d
  have hrule : ∀ e t, Build.Ensures (fun _ u => Opens env env.header.enumsIn
      [⟨.ofRule e, t⟩] t u) (declareRuleTypedef env e) t := fun e _ => declareRuleTypedef_opens e
  refine (visitsEach_opens file_advances (.ofTypedef {}) htypedef
    env.header.global.decls.typedefs _).bind fun htypedefs => .get_bind ?_
  refine (visitsEach_opens file_advances .ofRule hrule _ _).mono fun _ t hrules => ?_
  have henums := (hclasses.trans hnamespaces).andAdvances
    (addGlobalEnums_advances env (fun d hd => hglobal (List.mem_map_of_mem hd)) _)
  exact (henums.trans htypedefs).trans hrules

end
end Assembly
end BindingModel
