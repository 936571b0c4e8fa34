import BindingModel.Proofs.Assembly.Fillings
import BindingModel.Proofs.Assembly.Shelves

/-! Which class gets the members of a block: the one created last for the key of its scope. Where no
other block of the header has the key, that is the class of the block itself. -/
namespace BindingModel
open Api Header

/-! ### The blocks of a header -/

namespace Header

mutual

/-- The blocks of a class and of the classes inside it. -/
def ClassDecl.blocks (path : List String) : ClassDecl → List Block
  | ⟨decls, classes, _, _, _, _⟩ =>
    let b : Block := ⟨path ++ [Text.withoutArguments decls.name], decls⟩
    b :: blocksOfClasses b.path classes

def blocksOfClasses (path : List String) : List ClassDecl → List Block
  | [] => []
  | d :: ds => d.blocks path ++ blocksOfClasses path ds

end

mutual

def NamespaceDecl.blocks (path : List String) : NamespaceDecl → List Block
  | ⟨decls, classes, namespaces⟩ =>
    let b : Block := ⟨path ++ [decls.name], decls⟩
    b :: (blocksOfClasses b.path classes ++ blocksOfNamespaces b.path namespaces)

def blocksOfNamespaces (path : List String) : List NamespaceDecl → List Block
  | [] => []
  | d :: ds => d.blocks path ++ blocksOfNamespaces path ds

end

end Header

/-- All classes and namespaces of a header, in the order in which they stand there. -/
def Header.blocks (h : Header) : List Block :=
  blocksOfClasses [] h.global.classes ++ blocksOfNamespaces [] h.global.namespaces

namespace Assembly

/-! ### What is filled -/

section
variable {find : String → Option ClassId}

/-- The blocks are some of these, in their order, each with the class that its key leads to. -/
structure FillsSome (find : String → Option ClassId) (l : List Filling) (bs : List Block) :
    Prop where
  blocks : (l.map (·.block)).Sublist bs
  target : ∀ f ∈ l, find f.block.key = some f.target

namespace FillsSome
variable {l l' : List Filling} {bs bs' : List Block}

theorem nil : FillsSome find [] bs := ⟨List.nil_sublist _, fun _ h => absurd h List.not_mem_nil⟩

theorem append (h : FillsSome find l bs) (h' : FillsSome find l' bs') :
    FillsSome find (l ++ l') (bs ++ bs') := by
  refine ⟨?_, fun f hf => ?_⟩
  · rw [List.map_append]
    exact h.blocks.append h'.blocks
  · rcases List.mem_append.mp hf with hf | hf
    · exact h.target f hf
    · exact h'.target f hf

theorem cons {b : Block} {c : ClassId} (hb : find b.key = some c) (h : FillsSome find l bs) :
    FillsSome find (⟨b, c⟩ :: l) (b :: bs) := by
  refine ⟨h.blocks.cons_cons b, fun f hf => ?_⟩
  rcases List.mem_cons.mp hf with rfl | hf
  · exact hb
  · exact h.target f hf

end FillsSome

mutual

theorem fillingsClass_some (path : List String) : (d : ClassDecl) →
    FillsSome find (fillingsClass find path d) (d.blocks path)
  | ⟨decls, classes, _, _, _, _⟩ => by
    unfold fillingsClass ClassDecl.blocks
    dsimp only
    split
    · exact .nil
    · next c hc => exact .cons hc (fillingsClasses_some _ classes)

theorem fillingsClasses_some (path : List String) : (l : List ClassDecl) →
    FillsSome find (fillingsClasses find path l) (blocksOfClasses path l)
  | [] => .nil
  | d :: ds => (fillingsClass_some path d).append (fillingsClasses_some path ds)

end

mutual

theorem fillingsNamespace_some (path : List String) : (d : NamespaceDecl) →
    FillsSome find (fillingsNamespace find path d) (d.blocks path)
  | ⟨decls, classes, namespaces⟩ => by
    unfold fillingsNamespace NamespaceDecl.blocks
    dsimp only
    split
    · exact .nil
    · next c hc =>
      refine .cons hc (.append ?_ ?_)
      · exact fillingsClasses_some _ classes
      · exact fillingsNamespaces_some _ namespaces

theorem fillingsNamespaces_some (path : List String) : (l : List NamespaceDecl) →
    FillsSome find (fillingsNamespaces find path l) (blocksOfNamespaces path l)
  | [] => .nil
  | d :: ds => (fillingsNamespace_some path d).append (fillingsNamespaces_some path ds)

end

theorem fillings_some (h : Header) : FillsSome find (fillings h find) h.blocks :=
  (fillingsClasses_some [] h.global.classes).append
    (fillingsNamespaces_some [] h.global.namespaces)

end

/-! ### What was opened is filled -/

/-- A visit that was accepted created a class, which the key of its block leads to. -/
structure Visit.Found (env : Env) (find : String → Option ClassId) (v : Visit) : Prop where
  accepted : v.accepted?.isSome = (v.class? env).isSome
  key : ∀ o, v.opened? env = some o → (find o.1.key).isSome = true

section
variable {env : Env} {find : String → Option ClassId}

theorem openings_visitsEach {α : Type} {origin : α → Origin}
    (horigin : ∀ a, (origin a).block? = none) (file : ClassId → State → State) (l : List α)
    (s : State) : openings env (visitsEach env origin file l s) = [] := by
  induction l generalizing s with
  | nil => rfl
  | cons a l ih =>
    have hnone : (⟨origin a, s⟩ : Visit).opened? env = none := by
      unfold Visit.opened?
      rw [horigin]
      rfl
    unfold visitsEach
    rw [openings_cons_none hnone]
    exact ih _

theorem openings_rejected {v : Visit} (hv : v.Found env find) (hnone : v.accepted? = none) :
    openings env [v] = [] := by
  have hclass : v.class? env = none := by
    have haccepted := hv.accepted
    rw [hnone] at haccepted
    exact Option.isNone_iff_eq_none.mp (by simpa using haccepted.symm)
  have hopened : v.opened? env = none := by
    unfold Visit.opened?
    rw [hclass]
    cases v.origin.block? <;> rfl
  exact openings_cons_none hopened []

/-- An accepted visit opens its block, and its key leads somewhere. -/
theorem opened?_accepted {v : Visit} (hv : v.Found env find) {entry : Entry}
    (hsome : v.accepted? = some entry) {b : Block} (hb : v.origin.block? = some b) :
    (∃ c, v.opened? env = some (b, c)) ∧ ∃ c, find b.key = some c := by
  obtain ⟨c, hc⟩ : ∃ c, v.class? env = some c := by
    have haccepted := hv.accepted
    rw [hsome] at haccepted
    exact Option.isSome_iff_exists.mp haccepted.symm
  have hopened : v.opened? env = some (b, c) := by
    unfold Visit.opened?
    rw [hb, hc]
    rfl
  exact ⟨⟨c, hopened⟩, Option.isSome_iff_exists.mp (hv.key _ hopened)⟩

mutual

theorem visitsClass_filled (p : Place) (s : State) : (d : ClassDecl) →
    (∀ v ∈ visitsClass env p d s, v.Found env find) →
    ((openings env (visitsClass env p d s)).map (·.1)).Sublist
      ((fillingsClass find p.path d).map (·.block))
  | ⟨decls, classes, bases, templateParams, isFinal, properties⟩, h => by
    cases hentry : (⟨.ofClass p ⟨decls, classes, bases, templateParams, isFinal, properties⟩,
        s⟩ : Visit).accepted? with
    | none =>
      rw [visitsClass_rejected hentry] at h ⊢
      rw [openings_rejected (h _ List.mem_cons_self) hentry]
      exact List.nil_sublist _
    | some entry =>
      rw [visitsClass_accepted hentry] at h ⊢
      obtain ⟨⟨c, hopened⟩, c', hfound⟩ := opened?_accepted (h _ List.mem_cons_self) hentry rfl
      have htarget : fillingsClass find p.path
          ⟨decls, classes, bases, templateParams, isFinal, properties⟩ =
          ⟨⟨p.path ++ [Text.withoutArguments decls.name], decls⟩, c'⟩ :: fillingsClasses find
            (p.path ++ [Text.withoutArguments decls.name]) classes := by
        unfold fillingsClass
        dsimp only
        rw [show find (Block.key ⟨p.path ++ [Text.withoutArguments decls.name], decls⟩) = _
          from hfound]
      rw [openings_cons_some hopened, openings_append, openings_visitsEach fun _ => rfl,
        List.append_nil, htarget, List.map_cons, List.map_cons]
      exact (visitsClasses_filled (p.enter _ _) _ _ classes fun v hv =>
        h v (List.mem_cons_of_mem _ (List.mem_append_left _ hv))).cons_cons _

theorem visitsClasses_filled (p : Place) (file : ClassId → State → State) (s : State) :
    (l : List ClassDecl) → (∀ v ∈ visitsClasses env p file l s, v.Found env find) →
    ((openings env (visitsClasses env p file l s)).map (·.1)).Sublist
      ((fillingsClasses find p.path l).map (·.block))
  | [], _ => List.nil_sublist _
  | d :: ds, h => by
    unfold visitsClasses fillingsClasses at *
    rw [openings_append, List.map_append, List.map_append]
    exact (visitsClass_filled p s d fun v hv => h v (List.mem_append_left _ hv)).append
      (visitsClasses_filled p file _ ds fun v hv => h v (List.mem_append_right _ hv))

end

mutual

theorem visitsNamespace_filled (p : Place) (s : State) : (d : NamespaceDecl) →
    (∀ v ∈ visitsNamespace env p d s, v.Found env find) →
    ((openings env (visitsNamespace env p d s)).map (·.1)).Sublist
      ((fillingsNamespace find p.path d).map (·.block))
  | ⟨decls, classes, namespaces⟩, h => by
    cases hentry : (⟨.ofNamespace p ⟨decls, classes, namespaces⟩, s⟩ : Visit).accepted? with
    | none =>
      rw [visitsNamespace_rejected hentry] at h ⊢
      rw [openings_rejected (h _ List.mem_cons_self) hentry]
      exact List.nil_sublist _
    | some entry =>
      rw [visitsNamespace_accepted hentry] at h ⊢
      obtain ⟨⟨c, hopened⟩, c', hfound⟩ := opened?_accepted (h _ List.mem_cons_self) hentry rfl
      have htarget : fillingsNamespace find p.path ⟨decls, classes, namespaces⟩ =
          ⟨⟨p.path ++ [decls.name], decls⟩, c'⟩ ::
            (fillingsClasses find (p.path ++ [decls.name]) classes ++
              fillingsNamespaces find (p.path ++ [decls.name]) namespaces) := by
        unfold fillingsNamespace
        dsimp only
        rw [show find (Block.key ⟨p.path ++ [decls.name], decls⟩) = _ from hfound]
      rw [openings_cons_some hopened, openings_append, openings_append,
        openings_visitsEach fun _ => rfl, List.append_nil, htarget, List.map_cons, List.map_cons,
        List.map_append, List.map_append]
      refine ((visitsClasses_filled (p.enter _ _) _ _ classes fun v hv => ?_).append
        (visitsNamespaces_filled (p.enter _ _) _ _ namespaces fun v hv => ?_)).cons_cons _
      · exact h v (List.mem_cons_of_mem _ (List.mem_append_left _ (List.mem_append_left _ hv)))
      · exact h v (List.mem_cons_of_mem _ (List.mem_append_right _ hv))

theorem visitsNamespaces_filled (p : Place) (file : ClassId → State → State) (s : State) :
    (l : List NamespaceDecl) → (∀ v ∈ visitsNamespaces env p file l s, v.Found env find) →
    ((openings env (visitsNamespaces env p file l s)).map (·.1)).Sublist
      ((fillingsNamespaces find p.path l).map (·.block))
  | [], _ => List.nil_sublist _
  | d :: ds, h => by
    unfold visitsNamespaces fillingsNamespaces at *
    rw [openings_append, List.map_append, List.map_append]
    exact (visitsNamespace_filled p s d fun v hv => h v (List.mem_append_left _ hv)).append
      (visitsNamespaces_filled p file _ ds fun v hv => h v (List.mem_append_right _ hv))

end

/-- Whatever the first pass opens a scope for, the second one fills. -/
theorem visits_filled {s : State} (h : ∀ v ∈ visits env s, v.Found env find) :
    ((openings env (visits env s)).map (·.1)).Sublist
      ((fillings env.header find).map (·.block)) := by
  unfold visits at h ⊢
  dsimp only at h ⊢
  rw [openings_append, openings_append, openings_append,
    openings_visitsEach fun _ => rfl, openings_visitsEach fun _ => rfl, List.append_nil,
    List.append_nil, List.map_append]
  unfold fillings
  rw [List.map_append]
  refine (visitsClasses_filled {} _ _ _ fun v hv => h v ?_).append
    (visitsNamespaces_filled {} _ _ _ fun v hv => h v ?_)
  · exact List.mem_append_left _ (List.mem_append_left _ (List.mem_append_left _ hv))
  · exact List.mem_append_left _ (List.mem_append_left _ (List.mem_append_right _ hv))

end

/-! ### Classes before the second pass -/

/-- Only typedefs have members. -/
def State.Memberless (s : State) : Prop :=
  ∀ i, (s.store.get i).isTypedef = false →
    (s.store.get i).functions = [] ∧ (s.store.get i).fields = []

theorem Touches.memberless {s : State} {c d : BoundClass} (h : Touches s .declaring c d)
    (hc : c.isTypedef = false → c.functions = [] ∧ c.fields = []) (hd : d.isTypedef = false) :
    d.functions = [] ∧ d.fields = [] := by
  cases h with
  | create hfunctions hfields => exact ⟨hfunctions, hfields⟩
  | addEnum => exact hc hd
  | edit h =>
    rw [BoundClass.functions_eq_of_core h.core, BoundClass.fields_eq_of_core h.core]
    refine hc ?_
    rw [← hd]
    exact (congrArg ClassHead.isTypedef (BoundClass.head_eq_of_core h.core)).symm
  | addField hk => exact absurd rfl hk
  | addRule _ _ hk =>
    have htypedef : c.isTypedef = true := by simpa using hk
    have hplain : c.isTypedef = false := hd
    rw [htypedef] at hplain
    cases hplain

theorem Step.memberless {D : List (String × EnumDecl)} {s t : State}
    (h : Step D s .declaring t) (hs : s.Memberless) : t.Memberless :=
  fun i => (h.touches i).memberless (hs i)

/-! ### The classes of blocks -/

theorem lookup_eq_head? {α : Type} (key : String) (l : List (String × α)) :
    l.lookup key = (l.filter (·.1 == key)).head?.map (·.2) := by
  induction l with
  | nil => rfl
  | cons x l ih =>
    obtain ⟨k, a⟩ := x
    by_cases hk : k = key
    · subst hk
      rw [List.lookup_cons_self, List.filter_cons_of_pos (by simp)]
      rfl
    · rw [List.filter_cons_of_neg (by simpa using hk), ← ih, List.lookup_cons,
        beq_false_of_ne (Ne.symm hk)]

/-- The blocks that the first pass opens scopes for, each with the class that is created for it. -/
def openedBy (env : Env) (s : State) : List (Block × ClassId) := openings env (visits env s)

section
variable {env : Env} {db : Database} {t : State}

/-- The class that was created last for a block with the key. -/
theorem classOfScope?_of_declareAll (h : declareAll env { db } = .ok () t) (key : String) :
    t.classOfScope? key = ((openedBy env { db }).filter (·.1.key == key)).getLast?.map (·.2) := by
  have hscopes := (declareAll_opens env { db } () t h).scopes key
  rw [show ({ db } : State).scopes.filter (·.1 == key) = [] from rfl, List.append_nil] at hscopes
  unfold State.classOfScope?
  rw [lookup_eq_head?, hscopes, List.head?_map, List.head?_reverse, Option.map_map]
  rfl

theorem exists_opened (h : declareAll env { db } = .ok () t) {key : String} {c : ClassId}
    (hc : t.classOfScope? key = some c) : ∃ b, (b, c) ∈ openedBy env { db } ∧ b.key = key := by
  rw [classOfScope?_of_declareAll h] at hc
  obtain ⟨o, ho, rfl⟩ := Option.map_eq_some_iff.mp hc
  obtain ⟨hmem, hkey⟩ := List.mem_filter.mp (List.mem_of_getLast? ho)
  exact ⟨o.1, hmem, beq_iff_eq.mp hkey⟩

theorem found_of_declareAll (h : declareAll env { db } = .ok () t) :
    ∀ v ∈ visits env { db }, v.Found env t.classOfScope? := by
  have hdeclared := declareAll_adds env { db } () t h
  refine fun v hv => ⟨?_, fun o ho => ?_⟩
  · rw [hdeclared.entries v hv, Option.isSome_map]
  · have hmem : o ∈ (openedBy env { db }).filter (·.1.key == o.1.key) :=
      List.mem_filter.mpr ⟨List.mem_filterMap.mpr ⟨v, hv, ho⟩, beq_self_eq_true _⟩
    rw [classOfScope?_of_declareAll h, Option.isSome_map, List.getLast?_isSome]
    exact List.ne_nil_of_mem hmem

/-- Every block has a class of its own. -/
theorem openedBy_nodup (h : declareAll env { db } = .ok () t) :
    ((openedBy env { db }).map (·.2)).Nodup := by
  have hdeclared := declareAll_adds env { db } () t h
  have hsub : ∀ vs : List Visit,
      ((openings env vs).map (·.2)).Sublist (vs.filterMap (·.class? env)) := by
    intro vs
    induction vs with
    | nil => exact .slnil
    | cons v vs ih =>
      cases hopened : v.opened? env with
      | none =>
        rw [openings_cons_none hopened]
        exact ih.trans ((List.sublist_cons_self v vs).filterMap _)
      | some o =>
        obtain ⟨b, -, hb⟩ := Option.bind_eq_some_iff.mp hopened
        obtain ⟨c, hc, rfl⟩ := Option.map_eq_some_iff.mp hb
        rw [openings_cons_some hopened, List.filterMap_cons_some hc, List.map_cons]
        exact ih.cons_cons c
  refine (hsub _).nodup ?_
  rw [hdeclared.classes]
  exact List.nodup_range'

variable {b : Block} {c : ClassId} (h : declareAll env { db } = .ok () t)
  (hb : (b, c) ∈ openedBy env { db })

include h hb in
/-- Of the blocks with a key that one block has, one is filled. -/
theorem filled_once (hunique : env.header.blocks.filter (·.key == b.key) = [b]) :
    ((fillings env.header t.classOfScope?).map (·.block)).filter (·.key == b.key) = [b] := by
  have hsome : FillsSome t.classOfScope? (fillings env.header t.classOfScope?)
      env.header.blocks := fillings_some env.header
  have hsub := hsome.blocks.filter (·.key == b.key)
  rw [hunique] at hsub
  refine (List.sublist_singleton.mp hsub).resolve_left (List.ne_nil_of_mem (a := b) ?_)
  refine List.mem_filter.mpr ⟨?_, beq_self_eq_true _⟩
  exact (visits_filled (found_of_declareAll h)).subset (List.mem_map.mpr ⟨(b, c), hb, rfl⟩)

include h hb in
/-- And one was opened. -/
theorem opened_once (hunique : env.header.blocks.filter (·.key == b.key) = [b]) :
    (openedBy env { db }).filter (·.1.key == b.key) = [(b, c)] := by
  have hmem : (b, c) ∈ (openedBy env { db }).filter (·.1.key == b.key) :=
    List.mem_filter.mpr ⟨hb, beq_self_eq_true _⟩
  have hsub := (visits_filled (found_of_declareAll h)).filter (·.key == b.key)
  rw [filled_once h hb hunique, List.filter_map] at hsub
  have hone := (List.sublist_singleton.mp hsub).resolve_left
    (List.ne_nil_of_mem (List.mem_map_of_mem hmem))
  obtain ⟨o, ho, -⟩ := List.map_eq_singleton_iff.mp hone
  have ho : (openedBy env { db }).filter (·.1.key == b.key) = [o] := ho
  rw [ho, List.mem_singleton] at hmem
  rw [ho, hmem]

include h hb in
/-- A class that the key of its block leads to is filled by the blocks with that key. -/
theorem target_iff_key (hleads : t.classOfScope? b.key = some c) :
    ∀ f ∈ fillings env.header t.classOfScope?, (f.target == c) = (f.block.key == b.key) := by
  intro f hf
  have htarget := (fillings_some env.header).target f hf
  rw [Bool.eq_iff_iff, beq_iff_eq, beq_iff_eq]
  constructor
  · intro hc
    obtain ⟨b', hb', hkey⟩ := exists_opened h (hc ▸ htarget)
    have heq := List.inj_on_of_nodup_map (openedBy_nodup h) hb' hb rfl
    obtain rfl : b' = b := (Prod.mk.inj heq).1
    exact hkey.symm
  · intro hkey
    rw [hkey, hleads] at htarget
    exact (Option.some.inj htarget).symm

include h hb in
/-- The members of a block whose key no other block has go to the class created for it, and no other
block fills that class. -/
theorem filled_of_unique (hunique : env.header.blocks.filter (·.key == b.key) = [b]) :
    (fillings env.header t.classOfScope?).filter (·.target == c) = [⟨b, c⟩] := by
  have hleads : t.classOfScope? b.key = some c := by
    rw [classOfScope?_of_declareAll h, opened_once h hb hunique]
    rfl
  have honce := filled_once h hb hunique
  rw [List.filter_map] at honce
  obtain ⟨f, hf, hblock⟩ := List.map_eq_singleton_iff.mp honce
  have hf : (fillings env.header t.classOfScope?).filter (·.block.key == b.key) = [f] := hf
  have hmem : f ∈ fillings env.header t.classOfScope? :=
    List.mem_of_mem_filter (hf ▸ List.mem_singleton_self f)
  have htarget : f.target = c := by
    have hsame := target_iff_key h hb hleads f hmem
    rwa [hblock, beq_self_eq_true, beq_iff_eq] at hsame
  rw [List.filter_congr (target_iff_key h hb hleads), hf, ← hblock, ← htarget]

end

/-! ### Finished models -/

/-- Each block that got a class is filled, and its members go to the class that was created last for
its key. If no other block of the header has the key, then that is its own class, which gets them
and the functions of its rules once. A finished class has got, block after block, the fields and
functions of the blocks that fill it. -/
theorem blocks_filled {config : Config} {header : Header} {db : Database} {m : Model}
    (hm : (assemble config header db).result = .ok m) :
    ∃ t, declareAll (.make config header) { db } = .ok () t ∧
      ((openedBy (.make config header) { db }).map (·.1)).Sublist
        ((fillings header t.classOfScope?).map (·.block)) ∧
      (∀ f ∈ fillings header t.classOfScope?,
        ((openedBy (.make config header) { db }).filter (·.1.key == f.block.key)).getLast?.map
          (·.2) = some f.target) ∧
      ∀ b c, (b, c) ∈ openedBy (.make config header) { db } →
        let filled := traceOf (.make config header) c (fillings header t.classOfScope?) t
        (header.blocks.filter (·.key == b.key) = [b] → filled.map (·.1) = [⟨b, c⟩]) ∧
        filled.flatMap (fun x => x.1.fields (.make config header) x.2) <+:
          (m.store.get c).fields ∧
        (filled.flatMap fun x => x.1.functions (.make config header) x.2).map (·.unsettled) <+:
          (m.store.get c).functions.map (·.unsettled) := by
  obtain ⟨classes, s, hrun, rfl⟩ := assemble_eq_ok.mp hm
  obtain ⟨t, u, hdeclare, hfill, -, harranged, hevolves⟩ := run_arranged hrun
  have hopens := declareAll_opens (.make config header) { db } () t hdeclare
  have hsome : FillsSome t.classOfScope? (fillings header t.classOfScope?) header.blocks :=
    fillings_some header
  refine ⟨t, hdeclare, visits_filled (found_of_declareAll hdeclare), fun f hf => ?_,
    fun b c hb => ?_⟩
  · rw [← classOfScope?_of_declareAll hdeclare]
    exact hsome.target f hf
  obtain ⟨v, hblocks, hglobal⟩ := fillAll_eq_ok hfill
  have hlive : ∀ f ∈ fillings header t.classOfScope?, f.target < t.store.classes.size := by
    intro f hf
    obtain ⟨b', hb', -⟩ := exists_opened hdeclare (hsome.target f hf)
    exact (hopens.plain _ hb').1
  obtain ⟨hfields, hfunctions⟩ := members_forM hlive hblocks c
  have hempty : (t.store.get c).functions = [] ∧ (t.store.get c).fields = [] := by
    refine hopens.declaring.keeps (I := State.Memberless) Step.memberless (fun _ _ hs => hs)
      (fun i _ => ⟨rfl, rfl⟩) c ?_
    exact (hopens.plain _ hb).2
  rw [hempty.1, List.nil_append] at hfunctions
  rw [hempty.2, List.nil_append] at hfields
  have hkept : (v.store.get c).MembersKept (s.store.get c) := by
    have hrest : Evolves header v u := by
      rw [hglobal]
      exact .foldl (fun w f _ => addGlobalFunction_evolves _ w f) v
    exact ((hrest.trans (settleAll_evolves _ u)).trans hevolves).membersKept c
  refine ⟨fun hunique => ?_, ?_, ?_⟩
  · rw [map_traceOf]
    exact filled_of_unique hdeclare hb hunique
  · rw [← hfields]
    exact hkept.fields
  · rw [← hfunctions]
    exact hkept.functions

/-- Rules for two namespaces, each with a function added to it. -/
def reopenedRules : Database :=
  let help : AddedFunction :=
    { name := "help", args := [], returnType := .ofName "void", isConst := false }
  let (_, db) := Database.initial.add "NS" (.complex .namespaceScope { added := [help] })
  (db.add "Tools" (.complex .namespaceScope { added := [help] })).2

/-- One of the namespaces is opened twice. -/
def reopenedHeader : Header where
  global.namespaces := [
    { decls := { name := "NS", functions := [{ name := "first" }] } },
    { decls := { name := "NS", functions := [{ name := "second" }] } },
    { decls := { name := "Tools", functions := [{ name := "third" }] } }]

def toolsBlock : Block := ⟨["Tools"], { name := "Tools", functions := [{ name := "third" }] }⟩

theorem blocks_filled_tools :
    ∃ m, (assemble {} reopenedHeader reopenedRules).result = .ok m ∧
      ∃ t, declareAll (.make {} reopenedHeader) { db := reopenedRules } = .ok () t ∧
        (toolsBlock, 2) ∈ openedBy (.make {} reopenedHeader) { db := reopenedRules } ∧
        (traceOf (.make {} reopenedHeader) 2 (fillings reopenedHeader t.classOfScope?) t).map
          (·.1) = [⟨toolsBlock, 2⟩] := by
  obtain ⟨m, hm, -⟩ := exists_model_of_any (p := fun _ => true)
    (show (assemble {} reopenedHeader reopenedRules).result.toOption.any _ = true by
      decide +kernel)
  have hopened : (toolsBlock, 2) ∈ openedBy (.make {} reopenedHeader) { db := reopenedRules } :=
    List.mem_of_getElem? (i := 2) (by rfl)
  obtain ⟨t, hdeclare, -, -, hblocks⟩ := blocks_filled hm
  exact ⟨m, hm, t, hdeclare, hopened, (hblocks _ _ hopened).1 rfl⟩

/-- Both blocks of the namespace fill its second class, which gets the added function twice. -/
theorem blocks_merged :
    ∃ m, (assemble {} reopenedHeader reopenedRules).result = .ok m ∧
      m.classes.map (fun i => (i, (m.store.get i).qualifiedName,
        (m.store.get i).functions.map (·.declaredName))) =
        [(0, "NS", []), (1, "NS", ["first", "help", "second", "help"]),
          (2, "Tools", ["third", "help"])] := by
  obtain ⟨m, hm, hfacts⟩ := exists_model_of_any (p := fun m =>
    decide (m.classes.map (fun i => (i, (m.store.get i).qualifiedName,
      (m.store.get i).functions.map (·.declaredName))) =
      [(0, "NS", []), (1, "NS", ["first", "help", "second", "help"]),
        (2, "Tools", ["third", "help"])]))
    (show (assemble {} reopenedHeader reopenedRules).result.toOption.any _ = true by
      decide +kernel)
  exact ⟨m, hm, of_decide_eq_true hfacts⟩

end Assembly
end BindingModel
