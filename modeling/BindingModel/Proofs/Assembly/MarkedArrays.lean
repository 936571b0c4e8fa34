import BindingModel.Proofs.Assembly.ConstructorNames

/-! The arguments that a finished model uses as arrays. Each modification that marks one counts, those
of a template count again in its instances, and every mark after the first makes the element an array
of its own. -/
namespace BindingModel.Assembly
open Api Header

/-- How often the argument of a function at a position is marked as an array in all, and how often
since placeholders in it were replaced, in an assembly that turns the rules `db` into `used`. -/
inductive MarkedIn (env : Env) (db used : Database) : BoundClass → Function → Nat → Nat → Nat → Prop
  | never {c : BoundClass} {f : Function} {k : Nat} : MarkedIn env db used c f k 0 0
  /-- Every modification of the class for the function counts. -/
  | declared {c : BoundClass} {f : Function} {k n : Nat}
      (hn : n = marksAt (db.modsFor c.entry f.signature) k) : MarkedIn env db used c f k n n
  /-- A free operator was marked with the object still among its arguments, by the modifications of
  the class that it was judged in. -/
  | operator {c : BoundClass} {f whole : Function} {e : Entry} {objectFirst : Bool} {k n : Nat}
      (hf : f.isOperator = true) (hwhole : JudgedFor env db used e whole)
      (he : f.kind = .normal → e = c.entry)
      (hname : whole.declaredName = f.declaredName)
      (hargs : f.args.map (·.type) = (withoutObject objectFirst whole.args).map (·.type))
      (hn : n = marksAt (used.modsFor e whole.signature) (if objectFirst then k + 1 else k)) :
      MarkedIn env db used c f k n n
  /-- The marks that a function has in the template stay, and the modifications for the copy mark the
  instance again. -/
  | taken {bindings : List BoundType} {maxDepth : Nat} {c template : BoundClass} {f g : Function}
      {args : List Argument} {mods : List FunctionMod} {k n last : Nat}
      (h : MarkedIn env db used template f k n last) (hbase : NamesTemplate c template)
      (hcopy : CopyOf bindings maxDepth c.name f g)
      (hargs : List.Forall₂ (fun a x : Argument =>
        BoundType.instantiate bindings maxDepth a.type = .ok x.type) f.args args)
      (hmods : CopyMods db used c.entry template.entry f.signature { g with args }.signature mods) :
      MarkedIn env db used c g k (n + marksAt mods k) (marksAt mods k)

namespace MarkedIn
variable {env : Env} {db used : Database} {c d : BoundClass} {f : Function} {k n last : Nat}

theorem of_head (h : MarkedIn env db used c f k n last) (hhead : d.head = c.head) :
    MarkedIn env db used d f k n last := by
  have hentry := BoundClass.entry_eq_of_head hhead
  cases h with
  | never => exact .never
  | declared hn => exact .declared (hentry ▸ hn)
  | operator hf hwhole he hname hargs hn =>
    exact .operator hf hwhole (hentry ▸ he) hname hargs hn
  | taken h hbase hcopy hargs hmods =>
    have hname : d.name = c.name := congrArg Entry.localName hentry
    have hnames : d.baseNames = c.baseNames := congrArg ClassHead.baseNames hhead
    refine .taken h ?_ (hname ▸ hcopy) hargs (hentry ▸ hmods)
    unfold NamesTemplate templateName? BoundClass.qualifiedName at hbase ⊢
    rwa [hnames, hentry]

theorem settle (h : MarkedIn env db used c f k n last) (p : Policies) :
    MarkedIn env db used c (f.settle p) k n last := by
  cases h with
  | never => exact .never
  | declared hn =>
    have hsignature : (f.settle p).signature = f.signature := Function.signature_congr rfl rfl rfl
    exact .declared (hsignature ▸ hn)
  | operator hf hwhole he hname hargs hn => exact .operator hf hwhole he hname hargs hn
  | @taken _ _ _ _ _ _ args _ _ _ _ h hbase hcopy hargs hmods =>
    have hsignature : { f.settle p with args }.signature = { f with args }.signature :=
      Function.signature_congr rfl rfl rfl
    exact .taken h hbase (hcopy.congr rfl rfl) hargs (hsignature ▸ hmods)

end MarkedIn

/-- Every argument has the marks that are counted for it. -/
def ArgumentsMarked (env : Env) (db used : Database) (c : BoundClass) (f : Function) : Prop :=
  ∀ k b, f.args[k]? = some b → ∃ n last,
    MarkedIn env db used c f k n last ∧ b.type.MarkedTimes n last

section
variable {env : Env} {db used : Database} {c : BoundClass} {f : Function}

theorem argumentsMarked_of_unmarked (h : ∀ a ∈ f.args, a.type.Unmarked) :
    ArgumentsMarked env db used c f :=
  fun _ _ hb => ⟨0, 0, .never, .unmarked (h _ (List.mem_of_getElem? hb))⟩

/-- A pointer has as many marks more as it was marked, another type none. -/
theorem markedTimes_iterate {t : BoundType} {m last : Nat} (h : t.MarkedTimes m last) (n : Nat)
    {P : Nat → Nat → Prop} (hnever : P 0 0) (hmarked : P (m + n) (last + n)) :
    ∃ n' last', P n' last' ∧ (BoundType.marked^[n] t).MarkedTimes n' last' := by
  by_cases hpointer : t.pointers = 0
  · rw [BoundType.iterate_marked_of_pointers hpointer]
    obtain ⟨rfl, -⟩ | ⟨-, hne, -⟩ := h.depth_eq
    · obtain rfl := Nat.eq_zero_of_le_zero h.last_le
      exact ⟨0, 0, hnever, h⟩
    · exact absurd hpointer hne
  · exact ⟨m + n, last + n, hmarked, (h.iterate hpointer n).1⟩

theorem argumentsMarked_of_markedBy (h : MarkedBy (db.modsFor c.entry f.signature) f.args) :
    ArgumentsMarked env db used c f := by
  intro k b hb
  obtain ⟨t, ht, htype⟩ := h k b hb
  rw [htype]
  exact markedTimes_iterate (.unmarked ht) _ .never (.declared (Nat.zero_add _))

theorem argumentsMarked_of_operator (h : OperatorOf env db used c f) :
    ArgumentsMarked env db used c f := by
  obtain ⟨-, hoperator, e, whole, objectFirst, hwhole, he, hname, hargs, hmarks⟩ := h
  intro k b hb
  obtain ⟨a, ha, hsame⟩ := exists_of_map_eq hargs.symm hb
  obtain ⟨t, ht, htype⟩ := hmarks _ a (getElem?_withoutObject ha)
  rw [← hsame, htype]
  exact markedTimes_iterate (.unmarked ht) _ .never
    (.operator hoperator hwhole he hname hargs (Nat.zero_add _))

theorem argumentsMarked_of_takenOver {bindings : List BoundType} {maxDepth : Nat}
    {template : BoundClass} {g : Function} (h : ArgumentsMarked env db used template f)
    (hbase : NamesTemplate c template)
    (hcopy : TakenOver db used bindings maxDepth c template f g) :
    ArgumentsMarked env db used c g := by
  obtain ⟨args, mods, hargs, hmods, hmarks⟩ := hcopy.marks
  intro k b hb
  obtain ⟨x, hx, htype⟩ := hmarks k b hb
  obtain ⟨a, ha, hinstance⟩ := Error.exists_getElem?_of_forall₂ hargs hx
  obtain ⟨n, last, hn, hmarked⟩ := h k a ha
  rw [htype]
  refine markedTimes_iterate (.substitute hmarked hinstance) (marksAt mods k) .never ?_
  rw [Nat.zero_add]
  exact .taken hn hbase hcopy.toCopyOf hargs hmods

end

theorem memberOf_marked {db used : Database} {env : Env} {path : List String} {i : ClassId}
    {s : State} {d : FunctionDecl} {f : Function} (hmods : db.SameMods s.db)
    (hreleased : s.store.released = []) (hlt : i < s.store.classes.size)
    (h : memberOf env path i s d = some f) : ArgumentsMarked env db used (s.store.get i) f := by
  obtain ⟨g, hverdict, -, hfinished⟩ := memberOf_eq_some_iff.mp h
  let member : Function :=
    { g with attrs := g.attrs.insertIf (s.store.get i).isNamespace .static }
  have hsignature := (finishMember_named s (s.store.get i) member).1
  have hargs := (SameMaking.finishMember s (s.store.get i) member).args
  rw [hfinished] at hsignature hargs
  have hmember : member.signature = g.signature := by
    refine Function.signature_congr rfl rfl ?_
    simp [Function.has, FlagSet.has_insertIf, member]
  obtain ⟨-, himplementing, -⟩ := Draft.judge_made hverdict
  have hmarked := Draft.markedBy_judge hverdict
  change MarkedBy (s.store.modsOf s.db g) g.args at hmarked
  rw [modsOf_of_implementing hreleased hlt himplementing, hmods.modsFor] at hmarked
  refine argumentsMarked_of_markedBy ?_
  rw [hsignature, hmember, hargs]
  exact hmarked

/-- Each way to get a function counts the marks of its arguments. -/
theorem argumentsMarked_upheld (env : Env) (db used : Database) :
    Upheld env db used (ArgumentsMarked env db used) where
  head := by
    intro c d f hhead h k b hb
    obtain ⟨n, last, hn, hmarked⟩ := h k b hb
    exact ⟨n, last, hn.of_head hhead, hmarked⟩
  settle := by
    intro c f p h k b hb
    obtain ⟨n, last, hn, hmarked⟩ := h k b hb
    exact ⟨n, last, hn.settle p, hmarked⟩
  declared := memberOf_marked
  added := fun hadded => argumentsMarked_of_unmarked (Draft.unmarked_added hadded)
  implicit := fun _ _ => argumentsMarked_of_unmarked fun _ ha => absurd ha List.not_mem_nil
  implicitCopy := by
    intro i c isPrivate
    refine argumentsMarked_of_unmarked fun a ha => ?_
    obtain rfl := List.mem_singleton.mp ha
    exact BoundType.unmarked_decided (.inl rfl)
  taken := argumentsMarked_of_takenOver
  operator := argumentsMarked_of_operator

/-! ### Free functions -/

theorem markedGlobally_evolves {h : Header} {s t : State} (he : Evolves h s t)
    (hs : ∀ f ∈ s.globalFunctions, MarkedGlobally s.db f) :
    ∀ f ∈ t.globalFunctions, MarkedGlobally t.db f := by
  induction he with
  | refl => exact hs
  | @tail t u _ hc ih =>
    have hkept : ∀ f ∈ t.globalFunctions, MarkedGlobally u.db f :=
      fun f hf => (ih f hf).congr hc.db.globalMods rfl rfl
    cases hc with
    | aside _ _ hfree => exact hfree ▸ hkept
    | addFree _ hmarked =>
      intro g hg
      rcases List.mem_append.mp hg with hg | hg
      · exact hkept g hg
      · obtain rfl := List.mem_singleton.mp hg
        exact hmarked
    | settleFree p =>
      intro g hg
      obtain ⟨f, hf, rfl⟩ := List.mem_map.mp hg
      exact (hkept f hf).congr rfl rfl (Function.signature_congr rfl rfl rfl)
    | _ => exact hkept

/-! ### Arrays -/

/-- In a finished model every argument that is used as an array was marked, by a modification of its
function or when that was taken over. Its element is behind one indirection less, and it is itself no
array exactly if there was one mark: the marks of a template count with those of the class. -/
theorem arrays_marked {config : Config} {header : Header} {db : Database} {m : Model}
    (hm : (assemble config header db).result = .ok m) :
    (∀ c, ∀ f ∈ (m.store.get c).functions, ∀ k b, f.args[k]? = some b → ∃ n last,
      MarkedIn (.make config header) db (assemble config header db).db (m.store.get c) f k n last ∧
        b.type.ArrayAfter n last) ∧
    ∀ f ∈ m.globalFunctions, ∀ k b, f.args[k]? = some b →
      ∃ n, (n = 0 ∨ n = marksAt (db.globalModsFor f.signature) k) ∧ b.type.ArrayAfter n n := by
  refine ⟨fun c f hf k b hb => ?_, fun f hf k b hb => ?_⟩
  · have hmarked := functions_upheld hm (argumentsMarked_upheld (.make config header) db _) c f hf
    obtain ⟨n, last, hn, htimes⟩ := hmarked k b hb
    exact ⟨n, last, hn, htimes.arrayAfter⟩
  · obtain ⟨classes, s, hrun, rfl⟩ := assemble_eq_ok.mp hm
    have hevolves : Evolves header { db } s := (run_outcome _ _).of_ok hrun
    have hnone : ∀ f ∈ ({ db } : State).globalFunctions, MarkedGlobally db f :=
      fun f hf => absurd hf List.not_mem_nil
    have hmods : s.db.globalModsFor f.signature = db.globalModsFor f.signature := by
      unfold Database.globalModsFor
      rw [hevolves.db.globalMods]
    rcases markedGlobally_evolves hevolves hnone f hf with hmarked | hunmarked
    · obtain ⟨t, ht, htype⟩ := hmarked k b hb
      rw [hmods] at htype
      rw [htype]
      obtain ⟨n, _, ⟨hn, rfl⟩, htimes⟩ := markedTimes_iterate (.unmarked ht) _
        (P := fun n last => (n = 0 ∨ n = marksAt (db.globalModsFor f.signature) k) ∧ n = last)
        ⟨.inl rfl, rfl⟩ ⟨.inr (Nat.zero_add _), rfl⟩
      exact ⟨n, hn, htimes.arrayAfter⟩
    · have htimes := BoundType.MarkedTimes.unmarked (hunmarked b (List.mem_of_getElem? hb))
      exact ⟨0, .inl rfl, htimes.arrayAfter⟩

/-- Rules for a class and for a function of it that make an array of the argument so often. -/
def bufferRules (marks : Nat) : Database :=
  let mark : FunctionMod :=
    { FunctionMod.ofSignature "fill(int*)" with args := [{ index := 1, isArray := true }] }
  let (_, db) := Database.initial.add "int" .primitive
  let (buffer, db) := db.add "Buffer" (.complex .value {})
  (List.replicate marks mark).foldl (·.addMod buffer ·) db

def bufferHeader : Header where
  global.classes := [{ decls := {
    name := "Buffer"
    functions := [{
      name := "fill"
      args := [⟨"data", { TypeExpr.ofName "int" with pointers := 1 }, none⟩] }] } }]

theorem arrays_marked_buffer :
    ∃ m, (assemble .minimal bufferHeader (bufferRules 1)).result = .ok m ∧
      ∃ f ∈ (m.store.get 0).functions, ∃ b, f.args[0]? = some b ∧
        b.type.usage = .nativePointerAsArray ∧ ∃ last,
          MarkedIn (.make .minimal bufferHeader) (bufferRules 1)
            (assemble .minimal bufferHeader (bufferRules 1)).db (m.store.get 0) f 0 1 last ∧
          ∃ e, b.type.element? = some e ∧ e.element? = none ∧
            BoundType.IsArrayOf 1 last b.type e := by
  obtain ⟨m, hm, hfill⟩ := exists_model_of_any (p := fun m =>
    (m.store.get 0).functions.any fun f => f.args[0]?.any fun b : Argument =>
      decide (b.type.usage = .nativePointerAsArray) &&
        b.type.element?.all fun e : BoundType => e.element?.isNone)
    (show (assemble .minimal bufferHeader (bufferRules 1)).result.toOption.any _ = true by
      decide +kernel)
  simp only [List.any_eq_true, Option.any_eq_true, Bool.and_eq_true, decide_eq_true_eq,
    Option.all_eq_true, Option.isNone_iff_eq_none] at hfill
  obtain ⟨f, hf, b, hb, husage, hinner⟩ := hfill
  obtain ⟨n, last, hn, harray⟩ := (arrays_marked hm).1 0 f hf 0 b hb
  obtain ⟨-, e, helement, hof, honce⟩ := harray husage
  have hnone : e.element? = none := hinner e helement
  obtain rfl : n = 1 := honce.mp hnone
  exact ⟨m, hm, f, hf, b, hb, husage, last, hn, e, helement, hnone, hof⟩

/-- With a second mark the element of a pointer to numbers is an array of numbers itself. -/
theorem array_inside_array :
    ∃ m, (assemble .minimal bufferHeader (bufferRules 2)).result = .ok m ∧
      ∃ f ∈ (m.store.get 0).functions, f.signature = "fill(int*)" ∧
        ∃ b, f.args[0]? = some b ∧ b.type.pointers = 1 ∧
          b.type.usage = .nativePointerAsArray ∧
          ∃ e, b.type.element? = some e ∧ e.pointers = 0 ∧ e.element?.isSome = true := by
  obtain ⟨m, hm, hfill⟩ := exists_model_of_any (p := fun m =>
    (m.store.get 0).functions.any fun f => decide (f.signature = "fill(int*)") &&
      f.args[0]?.any fun b : Argument => decide (b.type.pointers = 1) &&
        decide (b.type.usage = .nativePointerAsArray) &&
        b.type.element?.any fun e : BoundType => decide (e.pointers = 0) && e.element?.isSome)
    (show (assemble .minimal bufferHeader (bufferRules 2)).result.toOption.any _ = true by
      decide +kernel)
  simp only [List.any_eq_true, Option.any_eq_true, Bool.and_eq_true, decide_eq_true_eq] at hfill
  obtain ⟨f, hf, hsignature, b, hb, ⟨hpointers, husage⟩, e, helement, hnone, hinner⟩ := hfill
  exact ⟨m, hm, f, hf, hsignature, b, hb, hpointers, husage, e, helement, hnone, hinner⟩

end BindingModel.Assembly
