import Pipework.Package
import Pipework.Proofs.Go.Clash
import Pipework.Proofs.Graph.Reload

/-!
# Names of packages

A library is named by the last segment of its path. Whatever stands there, the name is an
identifier, but not every identifier can name a package that Go builds and that a runner imports:
some are words of the language, one names nothing, one makes a command, and some make the main
file a test. `Go.Unfit` says for which segments that happens, and a package can be imported exactly
when the last segment of its path is not of this kind (`Graph.package_importable_iff`).
-/

namespace Pipework

/-! ## What a package needs -/

/-- The name and the main file of a package are such that Go builds it and others import it. -/
structure Package.Importable (package : Package) : Prop where
  isGoName : isGoName package.name = true
  notKeyword : package.name ∉ goKeywords
  notBlank : package.name ≠ "_"
  notMain : package.name ≠ "main"
  notTest : ¬ "_test.go".toList <:+ package.mainFile.toList

namespace Go

/-- The segments that make no fit name. -/
inductive Unfit (segment : List Char) : Prop where
  /-- It is a word of the language, in whatever case. -/
  | keyword (word : String) (isKeyword : word ∈ goKeywords)
      (same : segment.map Char.toLower = word.toList)
  | main (same : segment.map Char.toLower = "main".toList)
  /-- It is one character that no name has. -/
  | blank (character : Char) (other : character.isAlphanum = false) (alone : segment = [character])
  /-- It ends in the word for a test behind a character that no name has. -/
  | test (front : List Char) (character : Char) (ending : List Char)
      (other : character.isAlphanum = false) (isTest : ending.map Char.toLower = "test".toList)
      (split : segment = front ++ character :: ending)

/-! ## Characters -/

section Characters

theorem isAlphanum_of_isUpper
    {character : Char} (upper : character.isUpper = true) :
    character.isAlphanum = true := by
  have isAlpha : character.isAlpha = true := Bool.or_eq_true_iff.mpr (Or.inl upper)
  exact Bool.or_eq_true_iff.mpr (Or.inl isAlpha)

theorem toLower_of_not_isUpper
    {character : Char} (other : character.isUpper = false) :
    character.toLower = character :=
  dif_neg (of_decide_eq_false other)

theorem toLower_of_not_isAlphanum
    {character : Char} (other : character.isAlphanum = false) :
    character.toLower = character := by
  refine toLower_of_not_isUpper (Bool.eq_false_iff.mpr ?_)
  intro upper
  exact Bool.eq_false_iff.mp other (isAlphanum_of_isUpper upper)

/-- The lower case of a letter or a digit is a letter or a digit. -/
theorem isAlphanum_toLower
    {character : Char} (alphanumeric : character.isAlphanum = true) :
    character.toLower.isAlphanum = true := by
  cases upper : character.isUpper with
  | false =>
      rw [toLower_of_not_isUpper upper]
      exact alphanumeric
  | true =>
      have all : ∀ number < 91, (Char.ofNat number).isUpper = true →
          (Char.ofNat number).toLower.isAlphanum = true := by decide +kernel
      have bounds : 'A'.val ≤ character.val ∧ character.val ≤ 'Z'.val := of_decide_eq_true upper
      have small : character.toNat < 91 := Nat.lt_succ_of_le (UInt32.le_iff_toNat_le.mp bounds.2)
      have known := all character.toNat small
      rw [Char.ofNat_toNat] at known
      exact known upper

theorem packageChar_of_isAlphanum
    {character : Char} (alphanumeric : character.isAlphanum = true) :
    packageChar character = character.toLower := by
  rw [packageChar, if_pos alphanumeric]

theorem packageChar_of_not_isAlphanum
    {character : Char} (other : character.isAlphanum = false) :
    packageChar character = '_' := by
  rw [packageChar, if_neg (by rw [other]; nofun)]

/-- A character becomes an underscore exactly when it is neither a letter nor a digit. -/
theorem packageChar_eq_underscore_iff
    {character : Char} :
    packageChar character = '_' ↔ character.isAlphanum = false := by
  constructor
  · intro isUnderscore
    cases alphanumeric : character.isAlphanum with
    | false => rfl
    | true =>
        have lower := isAlphanum_toLower alphanumeric
        rw [← packageChar_of_isAlphanum alphanumeric, isUnderscore] at lower
        exact absurd lower (by decide)
  · exact packageChar_of_not_isAlphanum

/-- A character becomes a letter or a digit exactly when that is its lower case. -/
theorem packageChar_eq_iff
    {character wanted : Char} (alphanumeric : wanted.isAlphanum = true) :
    packageChar character = wanted ↔ character.toLower = wanted := by
  cases isAlphanum : character.isAlphanum with
  | true => rw [packageChar_of_isAlphanum isAlphanum]
  | false =>
      rw [packageChar_of_not_isAlphanum isAlphanum, toLower_of_not_isAlphanum isAlphanum]
      constructor
      · intro isWanted
        rw [← isWanted] at alphanumeric
        exact absurd alphanumeric (by decide)
      · intro isWanted
        rw [← isWanted, isAlphanum] at alphanumeric
        exact absurd alphanumeric nofun

theorem isNamePart_packageChar
    (character : Char) :
    isNamePart (packageChar character) = true := by
  cases alphanumeric : character.isAlphanum with
  | true =>
      rw [packageChar_of_isAlphanum alphanumeric]
      exact isNamePart_of_isAlphanum (isAlphanum_toLower alphanumeric)
  | false =>
      rw [packageChar_of_not_isAlphanum alphanumeric]
      decide

/-- A segment becomes a word of letters and digits exactly when that is its lower case. -/
theorem map_packageChar_eq_iff
    {segment word : List Char} (alphanumeric : ∀ character ∈ word, character.isAlphanum = true) :
    segment.map packageChar = word ↔ segment.map Char.toLower = word := by
  induction segment generalizing word with
  | nil => rfl
  | cons first rest inductionHypothesis =>
      cases word with
      | nil => exact iff_of_false (List.cons_ne_nil _ _) (List.cons_ne_nil _ _)
      | cons wanted more =>
          rw [List.map_cons, List.map_cons, List.cons.injEq, List.cons.injEq,
            packageChar_eq_iff (alphanumeric wanted List.mem_cons_self),
            inductionHypothesis fun character member =>
              alphanumeric character (List.mem_cons_of_mem wanted member)]

end Characters

/-! ## Names -/

section Names

variable {segment : List Char}

theorem map_packageChar_eq_underscore_iff :
    segment.map packageChar = "_".toList ↔
      ∃ character, character.isAlphanum = false ∧ segment = [character] := by
  constructor
  · intro same
    obtain ⟨character, rfl, isUnderscore⟩ := List.map_eq_singleton_iff.mp same
    exact ⟨character, packageChar_eq_underscore_iff.mp isUnderscore, rfl⟩
  · intro found
    obtain ⟨character, other, rfl⟩ := found
    rw [List.map_singleton, packageChar_of_not_isAlphanum other]
    rfl

theorem test_suffix_iff :
    "_test".toList <:+ segment.map packageChar ↔
      ∃ front character ending, character.isAlphanum = false ∧
        ending.map Char.toLower = "test".toList ∧ segment = front ++ character :: ending := by
  have letters : ∀ character ∈ "test".toList, character.isAlphanum = true :=
    List.all_eq_true.mp (by decide)
  constructor
  · intro isSuffix
    obtain ⟨front, same⟩ := isSuffix
    obtain ⟨segmentFront, back, rfl, _, isBack⟩ := List.map_eq_append_iff.mp same.symm
    obtain ⟨character, ending, rfl, isUnderscore, isTest⟩ := List.map_eq_cons_iff.mp isBack
    exact ⟨segmentFront, character, ending, packageChar_eq_underscore_iff.mp isUnderscore,
      (map_packageChar_eq_iff letters).mp isTest, rfl⟩
  · intro found
    obtain ⟨front, character, ending, other, isTest, rfl⟩ := found
    refine ⟨front.map packageChar, ?_⟩
    rw [List.map_append, List.map_cons, packageChar_of_not_isAlphanum other,
      (map_packageChar_eq_iff letters).mpr isTest]
    rfl

/-- The segments that make no fit name, by the characters that they become. -/
theorem unfit_iff :
    Unfit segment ↔
      (∃ word ∈ goKeywords, segment.map packageChar = word.toList) ∨
        segment.map packageChar = "main".toList ∨ segment.map packageChar = "_".toList ∨
          "_test".toList <:+ segment.map packageChar := by
  have keywordsAll : ∀ word ∈ goKeywords, word.toList.all Char.isAlphanum = true := by decide
  have keywordLetters : ∀ word ∈ goKeywords, ∀ character ∈ word.toList,
      character.isAlphanum = true := fun word isKeyword =>
    List.all_eq_true.mp (keywordsAll word isKeyword)
  have mainLetters : ∀ character ∈ "main".toList, character.isAlphanum = true :=
    List.all_eq_true.mp (by decide)
  rw [map_packageChar_eq_underscore_iff, test_suffix_iff, map_packageChar_eq_iff mainLetters]
  constructor
  · intro unfit
    cases unfit with
    | keyword word isKeyword same =>
        exact Or.inl ⟨word, isKeyword,
          (map_packageChar_eq_iff (keywordLetters word isKeyword)).mpr same⟩
    | main same => exact Or.inr (Or.inl same)
    | blank character other alone => exact Or.inr (Or.inr (Or.inl ⟨character, other, alone⟩))
    | test front character ending other isTest split =>
        exact Or.inr (Or.inr (Or.inr ⟨front, character, ending, other, isTest, split⟩))
  · intro shown
    rcases shown with ⟨word, isKeyword, same⟩ | same | ⟨character, other, alone⟩ |
      ⟨front, character, ending, other, isTest, split⟩
    · exact .keyword word isKeyword
        ((map_packageChar_eq_iff (keywordLetters word isKeyword)).mp same)
    · exact .main same
    · exact .blank character other alone
    · exact .test front character ending other isTest split

/-- The name of a package is what the last segment of its path becomes, behind a word if it would
be empty or start with a digit. -/
theorem packageName_cases
    (path : String) :
    (lastSegment path = [] ∧ packageName path = "pipeline") ∨
      ∃ first rest, (lastSegment path).map packageChar = first :: rest ∧
        (packageName path).toList =
          (if first.isDigit then "pipeline".toList else []) ++ first :: rest := by
  rw [packageName]
  cases isName : (lastSegment path).map packageChar with
  | nil => exact Or.inl ⟨List.map_eq_nil_iff.mp isName, rfl⟩
  | cons first rest =>
      refine Or.inr ⟨first, rest, rfl, ?_⟩
      rw [String.toList_append, String.toList_ofList]
      split <;> rfl

/-- The name of a package is an identifier, whatever its path is. -/
theorem isGoName_packageName
    (path : String) :
    isGoName (packageName path) = true := by
  rcases packageName_cases path with ⟨_, isDefault⟩ | ⟨first, rest, isName, spelled⟩
  · rw [isDefault]
    decide
  · have parts : ∀ character ∈ first :: rest, isNamePart character = true := by
      rw [← isName]
      intro character member
      obtain ⟨original, _, rfl⟩ := List.mem_map.mp member
      exact isNamePart_packageChar original
    have allParts : (first :: rest).all isNamePart = true := List.all_eq_true.mpr parts
    cases digit : first.isDigit with
    | true =>
        rw [digit, if_pos rfl] at spelled
        have behind : ("ipeline".toList ++ first :: rest).all isNamePart = true := by
          rw [List.all_append, allParts]
          decide
        have spelledOut : (packageName path).toList = 'p' :: ("ipeline".toList ++ first :: rest) :=
          spelled
        exact (isGoName_iff spelledOut).mpr ⟨by decide, behind⟩
    | false =>
        rw [digit, if_neg nofun] at spelled
        have isPart := parts first List.mem_cons_self
        have isStart : isNameStart first = true := by
          rw [isNamePart, Char.isAlphanum, digit, Bool.or_false] at isPart
          exact isPart
        exact (isGoName_iff spelled).mpr ⟨isStart, (Bool.and_eq_true _ _ ▸ allParts).2⟩

/-- Behind the word, a name ends as a test does exactly when it did so before. -/
theorem test_suffix_behind_word_iff
    {first : Char} {rest : List Char} (digit : first.isDigit = true) :
    "_test".toList <:+ "pipeline".toList ++ first :: rest ↔ "_test".toList <:+ first :: rest := by
  constructor
  · intro isSuffix
    rcases List.suffix_or_suffix_of_suffix isSuffix (List.suffix_append _ (first :: rest)) with
      inside | around
    · exact inside
    · have noDigit : ∀ character ∈ "_test".toList, ¬ character.isDigit = true :=
        List.any_eq_false.mp (by decide)
      exact absurd digit (noDigit first (around.subset List.mem_cons_self))
  · intro isSuffix
    exact isSuffix.trans (List.suffix_append _ _)

/-- The name of a package is fit exactly when the last segment of its path is. -/
theorem packageName_fit_iff
    (path : String) :
    (packageName path ∉ goKeywords ∧ packageName path ≠ "main" ∧ packageName path ≠ "_" ∧
        ¬ "_test".toList <:+ (packageName path).toList) ↔
      ¬ Unfit (lastSegment path) := by
  rw [unfit_iff]
  rcases packageName_cases path with ⟨empty, isDefault⟩ | ⟨first, rest, isName, spelled⟩
  · rw [isDefault, empty]
    decide
  · rw [isName, not_or, not_or, not_or]
    cases digit : first.isDigit with
    | true =>
        rw [digit, if_pos rfl] at spelled
        have apart : ∀ word ∈ "main" :: "_" :: goKeywords,
            ¬ "pipeline".toList <+: word.toList ∧ word.toList.any Char.isDigit = false := by
          decide
        have named (word : String) (known : word ∈ "main" :: "_" :: goKeywords) :
            packageName path ≠ word := by
          intro same
          refine (apart word known).1 ?_
          rw [← same, spelled]
          exact List.prefix_append _ _
        have spelledApart (word : String) (known : word ∈ "main" :: "_" :: goKeywords) :
            first :: rest ≠ word.toList := by
          intro same
          exact List.any_eq_false.mp (apart word known).2 first (same ▸ List.mem_cons_self) digit
        rw [spelled, test_suffix_behind_word_iff digit]
        constructor
        · intro fit
          refine ⟨?_, spelledApart "main" (by decide), spelledApart "_" (by decide), fit.2.2.2⟩
          intro found
          obtain ⟨word, isKeyword, same⟩ := found
          exact spelledApart word (List.mem_cons_of_mem _ (List.mem_cons_of_mem _ isKeyword)) same
        · intro fit
          refine ⟨?_, named "main" (by decide), named "_" (by decide), fit.2.2.2⟩
          intro isKeyword
          exact named _ (List.mem_cons_of_mem _ (List.mem_cons_of_mem _ isKeyword)) rfl
    | false =>
        rw [digit, if_neg nofun, List.nil_append] at spelled
        have same_iff (word : String) :
            packageName path = word ↔ first :: rest = word.toList := by
          rw [← String.toList_inj, spelled]
        have keyword_iff : packageName path ∈ goKeywords ↔
            ∃ word ∈ goKeywords, first :: rest = word.toList := by
          constructor
          · intro isKeyword
            exact ⟨_, isKeyword, (same_iff _).mp rfl⟩
          · intro found
            obtain ⟨word, isKeyword, same⟩ := found
            exact (same_iff word).mpr same ▸ isKeyword
        rw [keyword_iff, ne_eq, ne_eq, same_iff, same_iff, spelled]

end Names

end Go

/-! ## Packages of libraries -/

namespace Graph

/-- The package of a consistent library, by its name and its main file. -/
theorem package_of_library
    {graph : Graph} (unproblematic : graph.problems = []) (library : graph.isCommand = false) :
    ∃ package, graph.package = .ok package ∧
      package.name = Go.packageName graph.packagePath ∧
      package.mainFile = Go.packageName graph.packagePath ++ ".go" := by
  have name_eq : graph.packageName = Go.packageName graph.packagePath := by
    rw [packageName, library, if_neg nofun]
  simp only [package, requireConsistent, unproblematic, library, name_eq]
  exact ⟨_, rfl, rfl, rfl⟩

/-- A library always has a package, and its name is an identifier. Go builds the package and the
runner imports it exactly when the last segment of the path is none of those that are unfit. -/
theorem package_importable_iff
    {graph : Graph} (unproblematic : graph.problems = []) (library : graph.isCommand = false) :
    ∃ package, graph.package = .ok package ∧ isGoName package.name = true ∧
      (package.Importable ↔ ¬ Go.Unfit (Go.lastSegment graph.packagePath)) := by
  obtain ⟨package, made, name_eq, mainFile_eq⟩ := package_of_library unproblematic library
  have isGoName : isGoName package.name = true := by
    rw [name_eq]
    exact Go.isGoName_packageName graph.packagePath
  have test_iff : "_test.go".toList <:+ package.mainFile.toList ↔
      "_test".toList <:+ (Go.packageName graph.packagePath).toList := by
    have split : "_test.go".toList = "_test".toList ++ ".go".toList := by decide
    rw [mainFile_eq, String.toList_append, split]
    exact List.suffix_append_self_iff
  refine ⟨package, made, isGoName, ?_⟩
  rw [← Go.packageName_fit_iff, ← test_iff, ← name_eq]
  constructor
  · intro importable
    exact ⟨importable.notKeyword, importable.notMain, importable.notBlank, importable.notTest⟩
  · intro fit
    exact ⟨isGoName, fit.1, fit.2.2.1, fit.2.1, fit.2.2.2⟩

/-- Four paths of libraries that cannot be imported, and one of a library that can be. -/
theorem package_importable_iff_paths :
    let library := fun path => empty "g" path false
    (∀ path ∈ ["example.com/func", "example.com/Main", "example.com/-", "example.com/x_test"],
        (library path).problems = [] ∧ (library path).isCommand = false ∧
          ∃ package, (library path).package = .ok package ∧ ¬ package.Importable) ∧
      (library "example.com/function").problems = [] ∧
        ∃ package, (library "example.com/function").package = .ok package ∧
          package.Importable := by
  intro library
  refine ⟨?_, rfl, ?_⟩
  · intro path member
    have unfit : Go.Unfit (Go.lastSegment path) := by
      rw [Go.unfit_iff]
      have all : ∀ path ∈ ["example.com/func", "example.com/Main", "example.com/-",
          "example.com/x_test"],
          (∃ word ∈ goKeywords, (Go.lastSegment path).map Go.packageChar = word.toList) ∨
            (Go.lastSegment path).map Go.packageChar = "main".toList ∨
            (Go.lastSegment path).map Go.packageChar = "_".toList ∨
              "_test".toList <:+ (Go.lastSegment path).map Go.packageChar := by
        decide +kernel
      exact all path member
    obtain ⟨package, made, _, importable_iff⟩ :=
      package_importable_iff (rfl : (library path).problems = []) rfl
    exact ⟨rfl, rfl, package, made, fun importable => importable_iff.mp importable unfit⟩
  · have fit : ¬ Go.Unfit (Go.lastSegment "example.com/function") := by
      rw [Go.unfit_iff]
      decide +kernel
    obtain ⟨package, made, _, importable_iff⟩ :=
      package_importable_iff (rfl : (library "example.com/function").problems = []) rfl
    exact ⟨package, made, importable_iff.mpr fit⟩

end Graph

end Pipework
