import BindingModel.Assembly.IncludeResolver
import BindingModel.Proofs.Text.Bytes
import BindingModel.Proofs.Text.Split
import BindingModel.Proofs.Text.Trim

/-! Which path a file is included by. The rules are stated on texts; cutting paths at their bytes,
the deepest directory of a list and a table of earlier answers all follow them. -/
namespace BindingModel.Assembly

/-- The last component of a path is its own last component. -/
theorem fileName?_of_fileName? {path name : String} (h : fileName? path = some name) :
    fileName? name = some name := by
  unfold fileName? at h
  dsimp only at h
  split at h
  · cases h
  · cases h
  · rename_i piece hdots hlast
    obtain rfl := Option.some.inj h
    obtain ⟨hpiece, hname⟩ := List.mem_filter.mp (List.mem_of_getLast? hlast)
    have hslash : ∀ c ∈ piece, (c == '/') = false := Text.eq_false_of_mem_splitBy hpiece
    have hparts : ([piece].filter fun p => !p.isEmpty && p != ['.']).getLast? = some piece := by
      simp only [List.filter_cons, hname, if_true, List.filter_nil, List.getLast?_singleton]
    unfold fileName?
    dsimp only
    rw [String.toList_ofList, Text.splitBy_of_none hslash, hparts]
    split
    · contradiction
    · rename_i heq
      exact absurd (Option.some.inj heq) hdots
    · rename_i heq
      rw [Option.some.inj heq]

namespace IncludePaths
variable {directories : List String} {globalHeader? : Option String}
variable {file d d' rest rest' : String}

/-- A directory that is searched: one of those given, without the slashes at its end. -/
def Searched (directories : List String) (d : String) : Prop :=
  ∃ given ∈ directories, ∃ slashes : String, given = d ++ slashes ∧
    (∀ c ∈ slashes.toList, c = '/') ∧ d.toList.getLast? ≠ some '/'

/-- The file lies below the directory, and the rest of its path is what follows the slash. -/
structure LiesBelow (file d rest : String) : Prop where
  path : file = d ++ "/" ++ rest
  directory_ne : d ≠ ""
  rest_ne : rest ≠ ""

/-- The file is named like the global header. -/
def IsGlobal (globalHeader? : Option String) (file : String) : Prop :=
  ∃ name, fileName? file = some name ∧ globalHeader?.bind fileName? = some name

/-- The rules for include paths. The global header has none. Below a directory that is searched, the
path goes on from the longest such directory; and a file that lies below none of them is included by
the last component of its path, or by the whole path if that has none. -/
inductive IncludedAs (directories : List String) (globalHeader? : Option String) (file : String) :
    Option String → Prop
  | global (h : IsGlobal globalHeader? file) : IncludedAs directories globalHeader? file none
  | below {d rest : String} (h : ¬ IsGlobal globalHeader? file) (hd : Searched directories d)
      (hbelow : LiesBelow file d rest)
      (hlongest : ∀ d' rest', Searched directories d' → LiesBelow file d' rest' →
        d'.length ≤ d.length) :
      IncludedAs directories globalHeader? file (some rest)
  | bare (h : ¬ IsGlobal globalHeader? file)
      (hnone : ∀ d rest, Searched directories d → ¬ LiesBelow file d rest) :
      IncludedAs directories globalHeader? file (some ((fileName? file).getD file))

/-! ### Directories -/

theorem mem_make_directories :
    d ∈ (make directories globalHeader?).directories ↔ Searched directories d := by
  have htrim (given : String) :
      String.ofList (Text.dropEndWhile (· == '/') given.toList) = d ↔
        ∃ slashes : String, given = d ++ slashes ∧ (∀ c ∈ slashes.toList, c = '/') ∧
          d.toList.getLast? ≠ some '/' := by
    rw [← String.toList_inj, String.toList_ofList, Text.dropEndWhile_eq_iff]
    constructor
    · rintro ⟨⟨u, hgiven, hu⟩, hlast⟩
      refine ⟨.ofList u, ?_, ?_, ?_⟩
      · rw [← String.toList_inj]
        simpa using hgiven
      · simpa using hu
      · intro hslash
        have hne := hlast '/' hslash
        simp at hne
    · rintro ⟨slashes, rfl, hslashes, hlast⟩
      refine ⟨⟨slashes.toList, by simp, by simpa using hslashes⟩, ?_⟩
      intro c hc
      have hne : c ≠ '/' := fun h => hlast (h ▸ hc)
      simpa using hne
  simp [make, Searched, htrim]

theorem globalHeader?_make :
    (make directories globalHeader?).globalHeader? = globalHeader?.bind fileName? := rfl

namespace LiesBelow

theorem toList (h : LiesBelow file d rest) : file.toList = d.toList ++ '/' :: rest.toList := by
  rw [h.path]
  simp

theorem length (h : LiesBelow file d rest) : file.length = d.length + 1 + rest.length := by
  have hslash : "/".length = 1 := by decide
  rw [h.path, String.length_append, String.length_append, hslash]

theorem startsWith (h : LiesBelow file d rest) : d.toList <+: file.toList :=
  ⟨'/' :: rest.toList, h.toList.symm⟩

/-- The directories around a file lie around one another, so that a longer one has more bytes. -/
theorem exists_append (h : LiesBelow file d rest) (h' : LiesBelow file d' rest')
    (hle : d.length ≤ d'.length) : ∃ more, d' = d ++ more := by
  rw [← String.length_toList, ← String.length_toList] at hle
  obtain ⟨more, hmore⟩ := List.prefix_of_prefix_length_le h.startsWith h'.startsWith hle
  refine ⟨.ofList more, ?_⟩
  rw [← String.toList_inj, String.toList_append, String.toList_ofList, hmore]

theorem unique (h : LiesBelow file d rest) (h' : LiesBelow file d' rest')
    (hlength : d.length = d'.length) : rest = rest' := by
  obtain ⟨more, rfl⟩ := h.exists_append h' (Nat.le_of_eq hlength)
  have hmore : more.length = 0 := by
    rw [String.length_append] at hlength
    omega
  obtain rfl : more = "" := String.length_eq_zero_iff.mp hmore
  have hlists := h.toList.symm.trans h'.toList
  rw [String.append_empty] at hlists
  have hrest := List.append_cancel_left hlists
  exact String.toList_inj.mp (List.cons.inj hrest).2

theorem length_le_of_bytes (h : LiesBelow file d rest) (h' : LiesBelow file d' rest')
    (hle : d'.utf8ByteSize ≤ d.utf8ByteSize) : d'.length ≤ d.length := by
  by_contra hlt
  obtain ⟨more, rfl⟩ := h.exists_append h' (by omega)
  have hmore : more = "" := by
    rw [String.utf8ByteSize_append] at hle
    by_contra hne
    have hpos := Text.utf8ByteSize_pos.mpr hne
    omega
  rw [hmore, String.append_empty] at hlt
  exact hlt le_rfl

end LiesBelow

/-- An include path is determined by the rules. -/
theorem IncludedAs.unique {a b : Option String} (ha : IncludedAs directories globalHeader? file a)
    (hb : IncludedAs directories globalHeader? file b) : a = b := by
  cases ha with
  | global h =>
    cases hb with
    | global => rfl
    | below h' => exact absurd h h'
    | bare h' => exact absurd h h'
  | below h hd hbelow hlongest =>
    cases hb with
    | global h' => exact absurd h' h
    | below _ hd' hbelow' hlongest' =>
      have hle := hlongest _ _ hd' hbelow'
      have hge := hlongest' _ _ hd hbelow
      rw [hbelow.unique hbelow' (Nat.le_antisymm hge hle)]
    | bare _ hnone => exact absurd hbelow (hnone _ _ hd)
  | bare h hnone =>
    cases hb with
    | global h' => exact absurd h' h
    | below _ hd hbelow => exact absurd hbelow (hnone _ _ hd)
    | bare => rfl

/-- A file whose path has no last component is not taken for the global header by its whole path. -/
theorem isGlobal_iff : IsGlobal globalHeader? file ↔
    globalHeader?.bind fileName? = some ((fileName? file).getD file) := by
  unfold IsGlobal
  cases hname : fileName? file with
  | some name => simp
  | none =>
    constructor
    · rintro ⟨name, h, -⟩
      cases h
    · intro h
      obtain ⟨header, -, hheader⟩ := Option.bind_eq_some_iff.mp h
      have hfile := fileName?_of_fileName? hheader
      rw [Option.getD_none, hname] at hfile
      cases hfile

/-! ### The deepest directory -/

theorem below?_eq_some_iff : below? file d = some rest ↔ LiesBelow file d rest := by
  unfold below?
  constructor
  · intro h
    split at h
    · rename_i hprefix
      obtain ⟨after, hafter⟩ := List.isPrefixOf_iff_prefix.mp hprefix.2
      rw [← hafter, ← String.length_toList, List.drop_left] at h
      split at h
      · rename_i c tail htail
        obtain rfl := Option.some.inj h
        refine ⟨?_, hprefix.1, ?_⟩
        · rw [← String.toList_inj, ← hafter]
          simp
        · simp [← String.toList_inj]
      · cases h
    · cases h
  · intro h
    have hdrop : file.toList.drop d.length = '/' :: rest.toList := by
      rw [h.toList, ← String.length_toList, List.drop_left]
    rw [if_pos ⟨h.directory_ne, List.isPrefixOf_iff_prefix.mpr h.startsWith⟩, hdrop]
    cases hrest : rest.toList with
    | nil => exact absurd (String.toList_eq_nil_iff.mp hrest) h.rest_ne
    | cons c tail =>
      have hofList : String.ofList (c :: tail) = rest := by rw [← hrest, String.ofList_toList]
      exact congrArg some hofList

theorem belowDeepest?_eq_none {ds : List String} :
    belowDeepest? file ds = none ↔ ∀ d ∈ ds, below? file d = none := by
  induction ds with
  | nil => simp [belowDeepest?]
  | cons d ds ih =>
    rw [List.forall_mem_cons, ← ih, belowDeepest?]
    cases below? file d <;> cases belowDeepest? file ds <;> simp
    split <;> simp

theorem belowDeepest?_eq_some {ds : List String} (h : belowDeepest? file ds = some rest) :
    (∃ d ∈ ds, below? file d = some rest) ∧
      ∀ d ∈ ds, ∀ rest', below? file d = some rest' → rest.length ≤ rest'.length := by
  induction ds generalizing rest with
  | nil => cases h
  | cons d ds ih =>
    rw [belowDeepest?] at h
    cases hd : below? file d with
    | none =>
      cases hds : belowDeepest? file ds with
      | none => simp [hd, hds] at h
      | some b =>
        obtain rfl : b = rest := by simpa [hd, hds] using h
        obtain ⟨⟨d', hd', hb⟩, hleast⟩ := ih hds
        refine ⟨⟨d', List.mem_cons_of_mem d hd', hb⟩, List.forall_mem_cons.mpr ⟨?_, hleast⟩⟩
        intro rest' hrest'
        rw [hd] at hrest'
        cases hrest'
    | some a =>
      cases hds : belowDeepest? file ds with
      | none =>
        obtain rfl : a = rest := by simpa [hd, hds] using h
        refine ⟨⟨d, List.mem_cons_self, hd⟩, List.forall_mem_cons.mpr ⟨?_, ?_⟩⟩
        · intro rest' hrest'
          rw [hd] at hrest'
          rw [Option.some.inj hrest']
        · intro d' hd' rest' hrest'
          rw [belowDeepest?_eq_none.mp hds d' hd'] at hrest'
          cases hrest'
      | some b =>
        rw [hd, hds] at h
        dsimp only at h
        obtain ⟨⟨d', hd', hb⟩, hleast⟩ := ih hds
        split at h
        · rename_i hlt
          obtain rfl := Option.some.inj h
          refine ⟨⟨d, List.mem_cons_self, hd⟩, List.forall_mem_cons.mpr ⟨?_, ?_⟩⟩
          · intro rest' hrest'
            rw [hd] at hrest'
            rw [Option.some.inj hrest']
          · intro d' hd' rest' hrest'
            have hb' := hleast d' hd' rest' hrest'
            omega
        · rename_i hge
          obtain rfl := Option.some.inj h
          refine ⟨⟨d', List.mem_cons_of_mem d hd', hb⟩, List.forall_mem_cons.mpr ⟨?_, hleast⟩⟩
          intro rest' hrest'
          rw [hd] at hrest'
          obtain rfl := Option.some.inj hrest'
          omega

theorem includedAs_include? (directories : List String) (globalHeader? : Option String)
    (file : String) : IncludedAs directories globalHeader? file
      ((make directories globalHeader?).include? file) := by
  unfold include?
  dsimp only
  rw [globalHeader?_make]
  by_cases hglobal : IsGlobal globalHeader? file
  · rw [if_pos (isGlobal_iff.mp hglobal)]
    exact .global hglobal
  · rw [if_neg fun h => hglobal (isGlobal_iff.mpr h)]
    cases hdeepest : belowDeepest? file (make directories globalHeader?).directories with
    | none =>
      apply IncludedAs.bare hglobal
      intro d rest hd hbelow
      have hnone := belowDeepest?_eq_none.mp hdeepest d (mem_make_directories.mpr hd)
      rw [below?_eq_some_iff.mpr hbelow] at hnone
      cases hnone
    | some rest =>
      obtain ⟨⟨d, hd, hrest⟩, hleast⟩ := belowDeepest?_eq_some hdeepest
      have hbelow := below?_eq_some_iff.mp hrest
      apply IncludedAs.below hglobal (mem_make_directories.mp hd) hbelow
      intro d' rest' hd' hbelow'
      have hle := hleast d' (mem_make_directories.mpr hd') rest' (below?_eq_some_iff.mpr hbelow')
      have hfile := hbelow.length
      have hfile' := hbelow'.length
      omega

/-! ### Cutting paths at their bytes -/

theorem isBelow_iff : isBelow file d = true ↔ ∃ rest, LiesBelow file d rest := by
  have hslash : "/".utf8ByteSize = 1 := by decide
  unfold isBelow
  simp only [Bool.and_eq_true, decide_eq_true_eq, beq_iff_eq]
  constructor
  · rintro ⟨⟨⟨hne, hsize⟩, hprefix⟩, hbyte⟩
    obtain ⟨after, hafter⟩ := List.isPrefixOf_iff_prefix.mp hprefix
    obtain rfl : file = d ++ .ofList after := by
      rw [← String.toList_inj, ← hafter]
      simp
    rw [Text.byteAt?_append, Text.byteAt?_zero_eq_slash] at hbyte
    obtain ⟨rest, hrest⟩ := hbyte
    refine ⟨rest, by rw [hrest, String.append_assoc], by simpa using hne, ?_⟩
    rw [hrest, String.utf8ByteSize_append, String.utf8ByteSize_append, hslash] at hsize
    apply Text.utf8ByteSize_pos.mp
    omega
  · rintro ⟨rest, h⟩
    refine ⟨⟨⟨by simpa using h.directory_ne, ?_⟩, List.isPrefixOf_iff_prefix.mpr h.startsWith⟩, ?_⟩
    · have hrest := Text.utf8ByteSize_pos.mpr h.rest_ne
      rw [h.path, String.utf8ByteSize_append, String.utf8ByteSize_append, hslash]
      omega
    · rw [h.path, String.append_assoc, Text.byteAt?_append]
      exact Text.byteAt?_zero_eq_slash.mpr ⟨rest, rfl⟩

/-- Behind the slash the path can be cut. -/
theorem LiesBelow.fromByte? (h : LiesBelow file d rest) :
    Text.fromByte? file (d.utf8ByteSize + 1) = some rest := by
  have hsize : (d ++ "/").utf8ByteSize = d.utf8ByteSize + 1 := String.utf8ByteSize_append
  rw [h.path, ← hsize, Text.fromByte?_append]

theorem longest?_eq_none {ds : List String} : longest? ds = none ↔ ds = [] := by
  cases ds with
  | nil => simp [longest?]
  | cons d ds =>
    rw [longest?]
    split
    · simp
    · split <;> simp

theorem longest?_eq_some {ds : List String} (h : longest? ds = some d) :
    d ∈ ds ∧ ∀ e ∈ ds, e.utf8ByteSize ≤ d.utf8ByteSize := by
  induction ds generalizing d with
  | nil => cases h
  | cons e ds ih =>
    rw [longest?] at h
    split at h
    · rename_i hnone
      obtain rfl := Option.some.inj h
      simp [longest?_eq_none.mp hnone]
    · rename_i best hbest
      obtain ⟨hmem, hlongest⟩ := ih hbest
      split at h
      · rename_i hlt
        obtain rfl := Option.some.inj h
        refine ⟨List.mem_cons_self, List.forall_mem_cons.mpr ⟨le_rfl, ?_⟩⟩
        intro f hf
        have hle := hlongest f hf
        omega
      · rename_i hge
        obtain rfl := Option.some.inj h
        exact ⟨List.mem_cons_of_mem e hmem, List.forall_mem_cons.mpr ⟨by omega, hlongest⟩⟩

/-- Every path is cut at the start of a character, so there always is an answer. -/
theorem includedAs_answer? (directories : List String) (globalHeader? : Option String)
    (file : String) : ∃ answer, (make directories globalHeader?).answer? file = some answer ∧
      IncludedAs directories globalHeader? file answer := by
  unfold answer?
  dsimp only
  rw [globalHeader?_make]
  by_cases hglobal : IsGlobal globalHeader? file
  · rw [if_pos (isGlobal_iff.mp hglobal)]
    exact ⟨none, rfl, .global hglobal⟩
  · rw [if_neg fun h => hglobal (isGlobal_iff.mpr h)]
    cases hlongest : longest? ((make directories globalHeader?).directories.filter
        (isBelow file)) with
    | none =>
      refine ⟨_, rfl, .bare hglobal ?_⟩
      intro d rest hd hbelow
      have hmem : d ∈ (make directories globalHeader?).directories.filter (isBelow file) :=
        List.mem_filter.mpr ⟨mem_make_directories.mpr hd, isBelow_iff.mpr ⟨rest, hbelow⟩⟩
      rw [longest?_eq_none.mp hlongest] at hmem
      cases hmem
    | some d =>
      obtain ⟨hmem, hmost⟩ := longest?_eq_some hlongest
      obtain ⟨hd, hbelow⟩ := List.mem_filter.mp hmem
      obtain ⟨rest, hrest⟩ := isBelow_iff.mp hbelow
      refine ⟨some rest, by simp [hrest.fromByte?],
        .below hglobal (mem_make_directories.mp hd) hrest ?_⟩
      intro d' rest' hd' hbelow'
      apply hrest.length_le_of_bytes hbelow'
      apply hmost
      exact List.mem_filter.mpr ⟨mem_make_directories.mpr hd', isBelow_iff.mpr ⟨rest', hbelow'⟩⟩

end IncludePaths

namespace IncludeResolver
open IncludePaths
variable {r r' : IncludeResolver} {file : String} {answer : Option String}

/-- What is remembered is what would be answered. -/
def Remembers (r : IncludeResolver) : Prop :=
  ∀ file answer, r.answers.lookup file = some answer → r.paths.answer? file = some answer

/-- One question: the table gives the answer that the paths give, and takes down what is right. -/
theorem ask?_remembers (h : r.Remembers) (hanswer : r.paths.answer? file = some answer) :
    ∃ r', r.ask? file = some (answer, r') ∧ r'.paths = r.paths ∧ r'.Remembers := by
  unfold ask?
  cases hknown : r.answers.lookup file with
  | some known =>
    obtain rfl : known = answer := Option.some.inj ((h file known hknown).symm.trans hanswer)
    exact ⟨r, rfl, rfl, h⟩
  | none =>
    simp only [hanswer, Option.map_some]
    refine ⟨_, rfl, rfl, ?_⟩
    intro f a hlookup
    rw [List.lookup_cons] at hlookup
    split at hlookup
    · rename_i heq
      rw [← Option.some.inj hlookup, eq_of_beq heq]
      exact hanswer
    · exact h f a hlookup

theorem askAll?_remembers (h : r.Remembers) (hall : ∀ f, ∃ a, r.paths.answer? f = some a)
    (files : List String) :
    ∃ r', r.askAll? files = some r' ∧ r'.paths = r.paths ∧ r'.Remembers := by
  induction files generalizing r with
  | nil => exact ⟨r, rfl, rfl, h⟩
  | cons f files ih =>
    obtain ⟨a, ha⟩ := hall f
    obtain ⟨next, hnext, hpaths, hremembers⟩ := ask?_remembers h ha
    obtain ⟨last, hlast, hsame, hlater⟩ := ih hremembers (by rwa [hpaths])
    refine ⟨last, ?_, hsame.trans hpaths, hlater⟩
    unfold askAll?
    rw [List.foldlM_cons, hnext]
    exact hlast

/-- Whatever was asked before, a file is answered with the one include path that the rules give it,
and no path is cut inside a character. -/
theorem include_answered (directories : List String) (globalHeader? : Option String)
    (before : List String) (file : String) :
    ∃ r r' answer, IncludeResolver.askAll? ⟨.make directories globalHeader?, []⟩ before = some r ∧
      r.ask? file = some (answer, r') ∧
      (∀ a, IncludedAs directories globalHeader? file a ↔ a = answer) ∧
      (IncludePaths.make directories globalHeader?).include? file = answer := by
  have hempty : Remembers ⟨.make directories globalHeader?, []⟩ := by
    intro f a h
    cases h
  have hall (f : String) : ∃ a, (make directories globalHeader?).answer? f = some a := by
    obtain ⟨a, ha, -⟩ := includedAs_answer? directories globalHeader? f
    exact ⟨a, ha⟩
  obtain ⟨r, hr, hpaths, hremembers⟩ := askAll?_remembers hempty hall before
  obtain ⟨answer, hanswer, hincluded⟩ := includedAs_answer? directories globalHeader? file
  obtain ⟨r', hask, -, -⟩ := ask?_remembers hremembers (by rwa [hpaths])
  have hunique (a : Option String) :
      IncludedAs directories globalHeader? file a ↔ a = answer := by
    constructor
    · intro h
      exact h.unique hincluded
    · rintro rfl
      exact hincluded
  exact ⟨r, r', answer, hr, hask, hunique,
    (hunique _).mp (includedAs_include? directories globalHeader? file)⟩

end IncludeResolver
end BindingModel.Assembly
