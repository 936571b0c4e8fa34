import BindingModel.Api.IndexedRegistry
import BindingModel.Proofs.Catalog
import Mathlib.Data.List.Find
import Mathlib.Data.List.Induction
import Mathlib.Data.List.Nodup

/-! What a registry holds after classes were registered and removed in any order, as the calls tell:
the classes that were registered since their last removal, in the order in which they came in. The
registry that goes through all classes and the one with an index of names both hold them. -/
namespace BindingModel.Api

namespace Registry

/-- What is asked of a registry. -/
inductive Call
  | insert (i : ClassId)
  | remove (i : ClassId)
  deriving DecidableEq

def call (r : Registry) : Call → Registry
  | .insert i => r.insert i
  | .remove i => r.remove i

/-- The registry after some calls. -/
def ofCalls (calls : List Call) : Registry := calls.foldl call {}

/-- The class was registered and not removed after that. -/
def IsRegistered (calls : List Call) (i : ClassId) : Prop :=
  ∃ front rest, calls = front ++ .insert i :: rest ∧ .remove i ∉ rest

/-- The class came in by the call at this position, which found it not registered, and stayed. -/
def EntersAt (calls : List Call) (i : ClassId) (k : Nat) : Prop :=
  ∃ front rest, calls = front ++ .insert i :: rest ∧ front.length = k ∧
    ¬ IsRegistered front i ∧ .remove i ∉ rest

/-- The classes that are registered after the calls, each once, in the order in which they came in
last. -/
structure InOrder (calls : List Call) (l : List ClassId) : Prop where
  nodup : l.Nodup
  mem_iff : ∀ i, i ∈ l ↔ IsRegistered calls i
  ordered : l.Pairwise fun i j => ∃ k m, EntersAt calls i k ∧ EntersAt calls j m ∧ k < m

variable {calls : List Call} {c : Call} {i j : ClassId} {k : Nat}

theorem ofCalls_concat (calls : List Call) (c : Call) :
    ofCalls (calls ++ [c]) = (ofCalls calls).call c := List.foldl_concat call {} c calls

theorem not_isRegistered_nil (i : ClassId) : ¬ IsRegistered [] i := by
  rintro ⟨front, rest, h, -⟩
  simp at h

/-- A call is the last one, or one of those before it. -/
theorem concat_eq_append_cons_iff {front rest : List Call} {d : Call} :
    calls ++ [c] = front ++ d :: rest ↔
      calls = front ∧ c = d ∧ rest = [] ∨
        ∃ later, rest = later ++ [c] ∧ calls = front ++ d :: later := by
  constructor
  · intro h
    rcases List.eq_nil_or_concat rest with rfl | ⟨later, last, rfl⟩
    · obtain ⟨hcalls, hc⟩ := List.append_inj' h rfl
      exact .inl ⟨hcalls, (List.cons.inj hc).1, rfl⟩
    · rw [List.concat_eq_append, ← List.cons_append, ← List.append_assoc] at h
      obtain ⟨hcalls, hc⟩ := List.append_inj' h rfl
      obtain rfl := (List.cons.inj hc).1
      exact .inr ⟨later, List.concat_eq_append, hcalls⟩
  · rintro (⟨rfl, rfl, rfl⟩ | ⟨later, rfl, rfl⟩)
    · rfl
    · simp

theorem isRegistered_concat : IsRegistered (calls ++ [c]) i ↔
    c = .insert i ∨ IsRegistered calls i ∧ c ≠ .remove i := by
  constructor
  · rintro ⟨front, rest, h, hrest⟩
    rcases concat_eq_append_cons_iff.mp h with ⟨-, hc, -⟩ | ⟨later, rfl, hcalls⟩
    · exact .inl hc
    · rw [List.mem_append, List.mem_singleton, not_or] at hrest
      exact .inr ⟨⟨front, later, hcalls, hrest.1⟩, Ne.symm hrest.2⟩
  · rintro (rfl | ⟨⟨front, rest, rfl, hrest⟩, hc⟩)
    · exact ⟨calls, [], rfl, List.not_mem_nil⟩
    · refine ⟨front, rest ++ [c], by simp, ?_⟩
      simp [hrest, Ne.symm hc]

theorem entersAt_concat : EntersAt (calls ++ [c]) i k ↔
    c = .insert i ∧ ¬ IsRegistered calls i ∧ calls.length = k ∨
      EntersAt calls i k ∧ c ≠ .remove i := by
  constructor
  · rintro ⟨front, rest, h, hk, hfront, hrest⟩
    rcases concat_eq_append_cons_iff.mp h with ⟨rfl, hc, -⟩ | ⟨later, rfl, hcalls⟩
    · exact .inl ⟨hc, hfront, hk⟩
    · rw [List.mem_append, List.mem_singleton, not_or] at hrest
      exact .inr ⟨⟨front, later, hcalls, hk, hfront, hrest.1⟩, Ne.symm hrest.2⟩
  · rintro (⟨rfl, hfresh, hk⟩ | ⟨⟨front, rest, rfl, hk, hfront, hrest⟩, hc⟩)
    · exact ⟨calls, [], rfl, hk, hfresh, List.not_mem_nil⟩
    · refine ⟨front, rest ++ [c], by simp, hk, hfront, ?_⟩
      simp [hrest, Ne.symm hc]

theorem EntersAt.lt_length (h : EntersAt calls i k) : k < calls.length := by
  obtain ⟨front, rest, rfl, rfl, -, -⟩ := h
  simp

theorem EntersAt.isRegistered (h : EntersAt calls i k) : IsRegistered calls i := by
  obtain ⟨front, rest, rfl, -, -, hrest⟩ := h
  exact ⟨front, rest, rfl, hrest⟩

/-- There is no second position at which a class came in to stay. -/
theorem EntersAt.unique {m : Nat} (hk : EntersAt calls i k) (hm : EntersAt calls i m) : k = m := by
  induction calls using List.reverseRecOn with
  | nil => exact absurd hk.lt_length (Nat.not_lt_zero k)
  | append_singleton calls c ih =>
    rcases entersAt_concat.mp hk with ⟨-, hfresh, rfl⟩ | ⟨hk, -⟩
    · rcases entersAt_concat.mp hm with ⟨-, -, rfl⟩ | ⟨hm, -⟩
      · rfl
      · exact absurd hm.isRegistered hfresh
    · rcases entersAt_concat.mp hm with ⟨-, hfresh, -⟩ | ⟨hm, -⟩
      · exact absurd hk.isRegistered hfresh
      · exact ih hk hm

theorem exists_entersAt (h : IsRegistered calls i) : ∃ k, EntersAt calls i k := by
  induction calls using List.reverseRecOn with
  | nil => exact absurd h (not_isRegistered_nil i)
  | append_singleton calls c ih =>
    by_cases hold : IsRegistered calls i
    · have hc : c ≠ .remove i := by
        rcases isRegistered_concat.mp h with rfl | ⟨-, hc⟩
        · simp
        · exact hc
      obtain ⟨k, hk⟩ := ih hold
      exact ⟨k, entersAt_concat.mpr (.inr ⟨hk, hc⟩)⟩
    · have hc : c = .insert i := by
        rcases isRegistered_concat.mp h with hc | ⟨hcalls, -⟩
        · exact hc
        · exact absurd hcalls hold
      exact ⟨calls.length, entersAt_concat.mpr (.inl ⟨hc, hold, rfl⟩)⟩

namespace InOrder
variable {l : List ClassId}

theorem nil : InOrder [] [] where
  nodup := .nil
  mem_iff i := by simp [not_isRegistered_nil]
  ordered := .nil

/-- A class that is not registered comes in last. -/
theorem insert (h : InOrder calls l) (hi : i ∉ l) :
    InOrder (calls ++ [.insert i]) (l ++ [i]) where
  nodup := by
    apply List.Nodup.append h.nodup (List.nodup_singleton i)
    simpa using hi
  mem_iff j := by
    rw [List.mem_append, List.mem_singleton, h.mem_iff, isRegistered_concat]
    simp [or_comm, eq_comm]
  ordered := by
    have hnew : EntersAt (calls ++ [.insert i]) i calls.length := by
      have hfresh : ¬ IsRegistered calls i := fun hreg => hi ((h.mem_iff i).mpr hreg)
      exact entersAt_concat.mpr (.inl ⟨rfl, hfresh, rfl⟩)
    have hold {j : ClassId} {k : Nat} (hj : EntersAt calls j k) :
        EntersAt (calls ++ [.insert i]) j k := entersAt_concat.mpr (.inr ⟨hj, by simp⟩)
    apply List.pairwise_append.mpr
    refine ⟨h.ordered.imp ?_, List.pairwise_singleton _ _, ?_⟩
    · rintro j m ⟨k, n, hj, hm, hlt⟩
      exact ⟨k, n, hold hj, hold hm, hlt⟩
    · intro j hj m hm
      obtain rfl := List.mem_singleton.mp hm
      obtain ⟨k, hk⟩ := exists_entersAt ((h.mem_iff j).mp hj)
      exact ⟨k, calls.length, hold hk, hnew, hk.lt_length⟩

/-- A class that is registered already stays where it is. -/
theorem insert_of_mem (h : InOrder calls l) (hi : i ∈ l) : InOrder (calls ++ [.insert i]) l where
  nodup := h.nodup
  mem_iff j := by
    rw [isRegistered_concat, ← h.mem_iff]
    constructor
    · intro hj
      exact .inr ⟨hj, by simp⟩
    · rintro (heq | ⟨hj, -⟩)
      · rwa [← Call.insert.inj heq]
      · exact hj
  ordered := by
    apply h.ordered.imp
    rintro j m ⟨k, n, hj, hm, hlt⟩
    exact ⟨k, n, entersAt_concat.mpr (.inr ⟨hj, by simp⟩),
      entersAt_concat.mpr (.inr ⟨hm, by simp⟩), hlt⟩

theorem remove (h : InOrder calls l) (i : ClassId) :
    InOrder (calls ++ [.remove i]) (l.filter (· ≠ i)) where
  nodup := h.nodup.filter _
  mem_iff j := by
    have hne : Call.remove i ≠ .remove j ↔ j ≠ i := by
      rw [ne_eq, Call.remove.injEq, ne_comm]
    rw [isRegistered_concat, List.mem_filter, h.mem_iff, hne, decide_eq_true_iff]
    simp
  ordered := by
    apply (h.ordered.filter _).imp_of_mem
    rintro j m hj hm ⟨k, n, hk, hn, hlt⟩
    have hstays {a : ClassId} (ha : a ∈ l.filter (· ≠ i)) : Call.remove i ≠ .remove a := by
      have hne := of_decide_eq_true (List.mem_filter.mp ha).2
      intro heq
      exact hne (Call.remove.inj heq).symm
    exact ⟨k, n, entersAt_concat.mpr (.inr ⟨hk, hstays hj⟩),
      entersAt_concat.mpr (.inr ⟨hn, hstays hm⟩), hlt⟩

end InOrder

theorem members_remove (r : Registry) (i : ClassId) :
    (r.remove i).members = r.members.filter (· ≠ i) := by
  unfold Registry.remove
  split
  · rfl
  · rename_i hi
    symm
    rw [List.filter_eq_self]
    intro j hj
    have hne : j ≠ i := fun heq => hi (heq ▸ hj)
    simpa using hne

theorem inOrder_ofCalls (calls : List Call) : InOrder calls (ofCalls calls).members := by
  induction calls using List.reverseRecOn with
  | nil => exact .nil
  | append_singleton calls c ih =>
    rw [ofCalls_concat]
    cases c with
    | insert i =>
      by_cases hi : i ∈ (ofCalls calls).members
      · simpa [call, Registry.insert, hi] using ih.insert_of_mem hi
      · simpa [call, Registry.insert, hi] using ih.insert hi
    | remove i =>
      rw [call, members_remove]
      exact ih.remove i

end Registry

namespace IndexedRegistry
open Registry
variable {s : ClassStore} {r : IndexedRegistry} {l : List ClassId}

def call (s : ClassStore) (r : IndexedRegistry) : Call → IndexedRegistry
  | .insert i => r.insert s i
  | .remove i => (r.remove s i).2

/-- The registry with an index after some calls. -/
def ofCalls (s : ClassStore) (calls : List Call) : IndexedRegistry := calls.foldl (call s) {}

theorem ofCalls_concat (s : ClassStore) (calls : List Call) (c : Call) :
    ofCalls s (calls ++ [c]) = (ofCalls s calls).call s c := List.foldl_concat (call s) {} c calls

/-- The catalog of the registry keeps a list of classes under their names. -/
def Keeps (s : ClassStore) (r : IndexedRegistry) (l : List ClassId) : Prop :=
  r.classes.Lists (fun i => (s.get i).qualifiedName) l

namespace Keeps

theorem contains (h : r.Keeps s l) (i : ClassId) : r.contains s i = true ↔ i ∈ l := by
  rw [IndexedRegistry.contains, Catalog.Lists.holds h, List.any_eq_true]
  simp only [Bool.and_eq_true, beq_iff_eq]
  constructor
  · rintro ⟨j, hj, -, rfl⟩
    exact hj
  · intro hi
    exact ⟨i, hi, rfl, rfl⟩

theorem insert (h : r.Keeps s l) (hnext : r.classes.next.toNat + 1 < UInt32.size) (i : ClassId) :
    (r.insert s i).Keeps s (if i ∈ l then l else l ++ [i]) := by
  unfold IndexedRegistry.insert
  by_cases hi : i ∈ l
  · rwa [if_pos ((h.contains i).mpr hi), if_pos hi]
  · rw [if_neg (mt (h.contains i).mp hi), if_neg hi]
    exact Catalog.Lists.add h hnext i

theorem remove (h : r.Keeps s l) (hl : l.Nodup) (i : ClassId) :
    ((r.remove s i).1 = true ↔ i ∈ l) ∧ (r.remove s i).2.Keeps s (l.filter (· ≠ i)) := by
  have hname : ∀ j ∈ l, (j == i) = true → (s.get j).qualifiedName = (s.get i).qualifiedName := by
    intro j _ hj
    rw [eq_of_beq hj]
  obtain ⟨hfound, hlists⟩ := Catalog.Lists.remove h hname
  have hfilter : l.eraseP (· == i) = l.filter (· ≠ i) := by
    rw [← List.erase_eq_eraseP', hl.erase_eq_filter]
    simp only [bne, beq_eq_decide, decide_not]
  rw [hfilter] at hlists
  refine ⟨?_, hlists⟩
  have hany : (r.remove s i).1 = l.any (· == i) := hfound
  rw [hany, List.any_eq_true]
  simp

theorem findByName? (h : r.Keeps s l) (name : String) :
    r.findByName? name = l.find? fun i => (s.get i).qualifiedName == name := by
  rw [IndexedRegistry.findByName?, Catalog.Lists.find? h]
  simp only [Bool.and_true]

/-- The index by name does not hide the class of an entry, as its classes have its name. -/
theorem classOf? (h : r.Keeps s l) {e : Entry}
    (he : ∀ i ∈ l, (s.get i).entry.same e = true → (s.get i).entry = e) :
    r.classOf? s e = l.find? fun i => (s.get i).entry.same e := by
  rw [IndexedRegistry.classOf?, Catalog.Lists.find? h]
  apply List.find?_congr
  intro i hi
  cases hsame : (s.get i).entry.same e with
  | false => rw [Bool.and_false]
  | true =>
    have hname : (s.get i).qualifiedName = e.name := by rw [BoundClass.qualifiedName, he i hi hsame]
    rw [hname, beq_self_eq_true, Bool.and_true]

end Keeps

theorem next_call_le (s : ClassStore) (r : IndexedRegistry) (c : Call)
    (hnext : r.classes.next.toNat + 1 < UInt32.size) :
    (r.call s c).classes.next.toNat ≤ r.classes.next.toNat + 1 := by
  cases c with
  | insert i =>
    rw [call, insert]
    split
    · omega
    · exact (r.classes.toNat_next_add _ i hnext).le
  | remove i =>
    have hsame : (r.remove s i).2.classes.next = r.classes.next :=
      Catalog.next_remove r.classes (s.get i).qualifiedName (· == i)
    rw [call, hsame]
    omega

/-- The registry with an index keeps the classes that the other one has. -/
theorem keeps_ofCalls (s : ClassStore) (calls : List Call) (h : calls.length < UInt32.size) :
    (ofCalls s calls).Keeps s (Registry.ofCalls calls).members ∧
      (ofCalls s calls).classes.next.toNat ≤ calls.length := by
  induction calls using List.reverseRecOn with
  | nil => exact ⟨Catalog.Lists.empty 0 _, by simp [ofCalls]⟩
  | append_singleton calls c ih =>
    rw [List.length_append, List.length_singleton] at h ⊢
    obtain ⟨hkeeps, hle⟩ := ih (by omega)
    have hnext : (ofCalls s calls).classes.next.toNat + 1 < UInt32.size := by omega
    have hstep := next_call_le s (ofCalls s calls) c hnext
    rw [ofCalls_concat, Registry.ofCalls_concat]
    refine ⟨?_, by omega⟩
    cases c with
    | insert i =>
      have hmembers : ((Registry.ofCalls calls).insert i).members =
          if i ∈ (Registry.ofCalls calls).members then (Registry.ofCalls calls).members
          else (Registry.ofCalls calls).members ++ [i] := by
        unfold Registry.insert
        split <;> rfl
      rw [Registry.call, hmembers]
      exact hkeeps.insert hnext i
    | remove i =>
      rw [Registry.call, members_remove]
      exact (hkeeps.remove (inOrder_ofCalls calls).nodup i).2

/-- Both registries hold the same classes and find the same ones. -/
structure Agrees (s : ClassStore) (r : IndexedRegistry) (plain : Registry) : Prop where
  all : r.all = plain.members
  contains : ∀ i, r.contains s i = plain.contains i
  findByName? : ∀ name, r.findByName? name = plain.findByName? s name
  classOf? : ∀ e, (∀ i ∈ r.all, (s.get i).entry.same e = true → (s.get i).entry = e) →
    r.classOf? s e = plain.classOf? s e

theorem Keeps.agrees {plain : Registry} (h : r.Keeps s plain.members) : r.Agrees s plain where
  all := h.values
  contains i := by
    rw [Bool.eq_iff_iff, h.contains, Registry.contains, List.contains_iff_mem]
  findByName? := h.findByName?
  classOf? e he := by
    have hall : r.all = plain.members := h.values
    rw [hall] at he
    exact h.classOf? he

/-- After any calls that do not use up the numbers, the registry with an index has the classes that
were inserted since their last removal, in the order of the insertions that took effect. By name and
by entry it finds the first of them, and it answers as the registry without an index. -/
theorem tracks_calls (s : ClassStore) (calls : List Call) (h : calls.length < UInt32.size) :
    let r := ofCalls s calls
    InOrder calls r.all ∧
      (∀ i, r.contains s i = true ↔ i ∈ r.all) ∧
      (∀ name, r.findByName? name = r.all.find? fun i => (s.get i).qualifiedName == name) ∧
      (∀ e, (∀ i ∈ r.all, (s.get i).entry.same e = true → (s.get i).entry = e) →
        r.classOf? s e = r.all.find? fun i => (s.get i).entry.same e) ∧
      (∀ i, (r.remove s i).1 = true ↔ i ∈ r.all) ∧
      r.Agrees s (Registry.ofCalls calls) := by
  have hkeeps := (keeps_ofCalls s calls h).1
  have horder := inOrder_ofCalls calls
  have hall : (ofCalls s calls).all = (Registry.ofCalls calls).members := hkeeps.values
  rw [← hall] at hkeeps horder
  refine ⟨horder, hkeeps.contains, hkeeps.findByName?, fun e => hkeeps.classOf?,
    fun i => (hkeeps.remove horder.nodup i).1, ?_⟩
  exact Keeps.agrees (hall ▸ hkeeps)

/-- Three classes of one name, two of them of one entry, among calls that insert a class again and
remove one twice before it comes back. -/
theorem tracks_classes_of_one_name :
    let entry (n : Nat) (name : String) : Entry := ⟨some n, name, .complex .value {}⟩
    let s : ClassStore := { classes := #[{ entry := entry 0 "A" }, { entry := entry 1 "A" },
      { entry := entry 1 "A" }, { entry := entry 2 "B" }] }
    let calls : List Call := [.insert 1, .insert 0, .insert 1, .insert 2, .insert 3, .remove 1,
      .remove 1, .insert 1]
    let r := ofCalls s calls
    calls.length < UInt32.size ∧ r.all = [0, 2, 3, 1] ∧ InOrder calls [0, 2, 3, 1] ∧
      r.findByName? "A" = some 0 ∧ r.classOf? s (entry 1 "A") = some 2 ∧
      (r.remove s 1).1 = true ∧ (r.remove s 4).1 = false := by
  intro entry s calls r
  have hall : r.all = [0, 2, 3, 1] := by decide +kernel
  obtain ⟨horder, -, hname, hentry, hremove, -⟩ := tracks_calls s calls (by decide)
  have hone : ∀ i ∈ [0, 2, 3, 1],
      (s.get i).entry.same (entry 1 "A") = true → (s.get i).entry = entry 1 "A" := by
    simp only [List.forall_mem_cons]
    refine ⟨?_, fun _ => rfl, ?_, fun _ => rfl, List.forall_mem_nil _⟩
    · intro h
      exact absurd h (by decide)
    · intro h
      exact absurd h (by decide)
  rw [show (ofCalls s calls).all = _ from hall] at horder hname hentry hremove
  refine ⟨by decide, hall, horder, ?_, ?_, ?_, ?_⟩
  · rw [hname]
    decide +kernel
  · rw [hentry _ hone]
    decide +kernel
  · exact (hremove 1).mpr (by decide)
  · have h : ¬ (r.remove s 4).1 = true := mt (hremove 4).mp (by decide)
    simpa using h

end IndexedRegistry
end BindingModel.Api
