import Pipework.Project.Settings
import Pipework.Proofs.Yaml.Lexer

/-!
# The first settings of a project

The text of a new project's settings is read back as the settings of that name when the name can
stand in the text as it is (`Settings.ofText_initialText`).
-/

namespace Pipework.Settings

open Yaml
open Yaml.Lexer (IsKey Progress Reads StartsToken entryText headingText lineText)

/-- What stands behind the name in the first settings. -/
def initialRest : List Char :=
  lineText "# Graph files (JSON) live here".toList 0
    (entryText "graphs_dir" "graphs".toList 1 0
      (lineText "# Generated Go packages are written here, one directory per graph".toList 0
        (entryText "output_dir" "gen".toList 1 0
          (headingText "codegen" 2
            (entryText "format" "true".toList 0 2
              (entryText "gofmt" "gofmt".toList 0 2
                (entryText "go" "go".toList 1 0
                  (headingText "store" 2
                    (entryText "save_timeout_ms" "5000".toList 0 0 [])))))))))

theorem toList_initialText
    (name : String) :
    (initialText name).toList =
      lineText "# chanweave project configuration".toList 0
        (entryText "name" name.toList 1 0 initialRest) := by
  have isName : "name: ".toList = "name".toList ++ [':', ' '] := by decide
  have isGraphs : "graphs_dir: graphs".toList =
      "graphs_dir".toList ++ ':' :: ' ' :: "graphs".toList := by decide
  have isOutput : "output_dir: gen".toList =
      "output_dir".toList ++ ':' :: ' ' :: "gen".toList := by decide
  have isCodegen : "codegen:".toList = "codegen".toList ++ [':'] := by decide
  have isFormat : "  format: true".toList =
      ' ' :: ' ' :: "format".toList ++ ':' :: ' ' :: "true".toList := by decide
  have isGofmt : "  gofmt: gofmt".toList =
      ' ' :: ' ' :: "gofmt".toList ++ ':' :: ' ' :: "gofmt".toList := by decide
  have isGo : "  go: go".toList =
      ' ' :: ' ' :: "go".toList ++ ':' :: ' ' :: "go".toList := by decide
  have isStore : "store:".toList = "store".toList ++ [':'] := by decide
  have isTimeout : "  save_timeout_ms: 5000".toList =
      ' ' :: ' ' :: "save_timeout_ms".toList ++ ':' :: ' ' :: "5000".toList := by decide
  have isFeed : "\n".toList = ['\n'] := by decide
  simp only [initialText, Text.ofLines, List.map_cons, List.map_nil, String.toList_join,
    List.flatMap_cons, List.flatMap_nil, String.toList_append, isName, isGraphs, isOutput,
    isCodegen, isFormat, isGofmt, isGo, isStore, isTimeout, isFeed, String.toList_empty]
  simp only [initialRest, lineText, entryText, headingText, List.append_assoc, List.cons_append,
    List.nil_append, List.replicate_zero, List.replicate_succ]

/-- The tokens behind those of the name. -/
def restTokens : List Token :=
  [.key, .scalar true "graphs_dir", .value, .scalar true "graphs",
    .key, .scalar true "output_dir", .value, .scalar true "gen",
    .key, .scalar true "codegen", .value, .blockMappingStart,
    .key, .scalar true "format", .value, .scalar true "true",
    .key, .scalar true "gofmt", .value, .scalar true "gofmt",
    .key, .scalar true "go", .value, .scalar true "go", .blockEnd,
    .key, .scalar true "store", .value, .blockMappingStart,
    .key, .scalar true "save_timeout_ms", .value, .scalar true "5000", .blockEnd, .blockEnd]

/-- The tokens of the first settings, those of the name given. -/
def initialTokens (value : List Token) : List Token :=
  .blockMappingStart :: .key :: .scalar true "name" :: .value :: (value ++ restTokens)

theorem isPlainLine_of_word
    {word : List Char} (isWord : IsPlainWord word)
    (starts : word.head?.any Lexer.indicators.contains = false) :
    IsPlainLine word := by
  obtain ⟨first, others, rfl⟩ := List.exists_cons_of_ne_nil isWord.filled
  have notIndicator : first ∉ Lexer.indicators := fun member =>
    Bool.eq_false_iff.mp starts (List.contains_iff_mem.mpr member)
  exact ⟨Or.inl notIndicator, .one isWord⟩

variable {lexer : Lexer} {slots : List (List Token)} {rest : List Char}

/-- The name and the directories. -/
theorem exists_reads_directories
    {name : String} (isLine : IsPlainLine name.toList) (startsToken : StartsToken rest)
    (stands : lexer.Stands Progress.start true
      (lineText "# chanweave project configuration".toList 0
        (entryText "name" name.toList 1 0
          (lineText "# Graph files (JSON) live here".toList 0
            (entryText "graphs_dir" "graphs".toList 1 0
              (lineText
                "# Generated Go packages are written here, one directory per graph".toList 0
                (entryText "output_dir" "gen".toList 1 0 rest)))))) 0) :
    ∃ next, Reads 9 lexer next ∧
      next.Stands
        ⟨[.scalar true "gen"] :: [.value] :: [.scalar true "output_dir"] :: [.key] ::
          [.scalar true "graphs"] :: [.value] :: [.scalar true "graphs_dir"] :: [.key] ::
          [.scalar true name] :: [.value] :: [.scalar true "name"] ::
          [.blockMappingStart, .key] :: [], (0 : Nat), [-1], none⟩ true rest 0 := by
  have isName : IsKey "name" := by decide
  have isGraphs : IsKey "graphs_dir" := by decide
  have isOutput : IsKey "output_dir" := by decide
  obtain ⟨_, toGraphs, standsGraphs⟩ := Lexer.exists_reads_entry isName isLine
    (stands.skipBlanks_next (by decide) (isName.noMark _) (isName.startsToken _)) rfl
    (Lexer.endsGap_lineText (by decide) _ _) (by decide) (Nat.le_refl 0)
  rw [Progress.start, Progress.withKey_close_of_lt (by decide), Progress.push_mk,
    String.ofList_toList] at standsGraphs
  obtain ⟨_, toOutput, standsOutput⟩ := Lexer.exists_reads_entry isGraphs
    (isPlainLine_of_word (by decide) (by decide))
    (standsGraphs.skipBlanks_next (by decide) (isGraphs.noMark _) (isGraphs.startsToken _)) rfl
    (Lexer.endsGap_lineText (by decide) _ _) (Int.le_refl 0) (Nat.le_refl 0)
  rw [Progress.withKey_close_self, Progress.push_mk, String.ofList_toList] at standsOutput
  obtain ⟨next, toNext, standsNext⟩ := Lexer.exists_reads_entry isOutput
    (isPlainLine_of_word (by decide) (by decide))
    (standsOutput.skipBlanks_next (by decide) (isOutput.noMark _) (isOutput.startsToken _)) rfl
    startsToken.endsGap (Int.le_refl 0) (Nat.le_refl 0)
  rw [Progress.withKey_close_self, Progress.push_mk, String.ofList_toList] at standsNext
  exact ⟨next, (toGraphs.trans toOutput).trans toNext, standsNext⟩

/-- How code is generated. -/
theorem exists_reads_codegen
    (startsToken : StartsToken rest)
    (stands : lexer.Stands ⟨slots, (0 : Nat), [-1], none⟩ true
      (headingText "codegen" 2
        (entryText "format" "true".toList 0 2
          (entryText "gofmt" "gofmt".toList 0 2
            (entryText "go" "go".toList 1 0 rest)))) 0) :
    ∃ next, Reads 11 lexer next ∧
      next.Stands
        ⟨[.scalar true "go"] :: [.value] :: [.scalar true "go"] :: [.key] ::
          [.scalar true "gofmt"] :: [.value] :: [.scalar true "gofmt"] :: [.key] ::
          [.scalar true "true"] :: [.value] :: [.scalar true "format"] ::
          [.blockMappingStart, .key] :: [.value] :: [.scalar true "codegen"] :: [.key] ::
          slots, (2 : Nat), [(0 : Nat), -1], none⟩ true rest 0 := by
  have isCodegen : IsKey "codegen" := by decide
  have isFormat : IsKey "format" := by decide
  have isGofmt : IsKey "gofmt" := by decide
  have isGo : IsKey "go" := by decide
  have nests : (0 : Int) ≤ 2 := by decide
  obtain ⟨_, _, toFormat, standsFormat⟩ := Lexer.exists_reads_heading isCodegen
    (stands.ready (isCodegen.noMark _) (isCodegen.startsToken _)) rfl (Int.le_refl 0)
  rw [Progress.withKey_close_self] at standsFormat
  obtain ⟨_, toGofmt, standsGofmt⟩ := Lexer.exists_reads_entry isFormat
    (isPlainLine_of_word (by decide) (by decide))
    (standsFormat.skipBlanks_next (by decide) (isFormat.noMark _) (isFormat.startsToken _)) rfl
    (isGofmt.startsToken _).endsGap nests (Nat.le_refl 2)
  rw [Progress.withKey_close_of_lt (by decide), Progress.push_mk, String.ofList_toList]
    at standsGofmt
  obtain ⟨_, toGo, standsGo⟩ := Lexer.exists_reads_entry isGofmt
    (isPlainLine_of_word (by decide) (by decide))
    (standsGofmt.ready (isGofmt.noMark _) (isGofmt.startsToken _)) rfl
    (isGo.startsToken _).endsGap (Int.le_refl 2) (Nat.le_refl 2)
  rw [Progress.withKey_close_self, Progress.push_mk, String.ofList_toList] at standsGo
  obtain ⟨next, toNext, standsNext⟩ := Lexer.exists_reads_entry isGo
    (isPlainLine_of_word (by decide) (by decide))
    (standsGo.ready (isGo.noMark _) (isGo.startsToken _)) rfl
    startsToken.endsGap (Int.le_refl 2) (Nat.zero_le 2)
  rw [Progress.withKey_close_self, Progress.push_mk, String.ofList_toList] at standsNext
  exact ⟨next, ((toFormat.trans toGofmt).trans toGo).trans toNext, standsNext⟩

/-- How long a save may take, at the end of the text. -/
theorem exists_reads_store
    (stands : lexer.Stands ⟨slots, (2 : Nat), [(0 : Nat), -1], none⟩ true
      (headingText "store" 2 (entryText "save_timeout_ms" "5000".toList 0 0 [])) 0) :
    ∃ next, Reads 5 lexer next ∧
      next.Stands
        ⟨[.scalar true "5000"] :: [.value] :: [.scalar true "save_timeout_ms"] ::
          [.blockMappingStart, .key] :: [.value] :: [.scalar true "store"] :: [.key] ::
          [.blockEnd] :: slots, (2 : Nat), [(0 : Nat), -1], none⟩ true [] 0 := by
  have isStore : IsKey "store" := by decide
  have isTimeout : IsKey "save_timeout_ms" := by decide
  have nests : (0 : Int) ≤ 2 := by decide
  obtain ⟨_, _, toTimeout, standsTimeout⟩ := Lexer.exists_reads_heading isStore
    (stands.ready (isStore.noMark _) (isStore.startsToken _)) rfl (Int.le_refl 0)
  rw [Progress.withKey_close_of_gt _ _ (by decide)] at standsTimeout
  obtain ⟨next, toNext, standsNext⟩ := Lexer.exists_reads_entry isTimeout
    (isPlainLine_of_word (by decide) (by decide))
    (standsTimeout.skipBlanks_next (by decide) (isTimeout.noMark _) (isTimeout.startsToken _))
    rfl (fun _ isFirst => nomatch isFirst) nests (Nat.zero_le 2)
  rw [Progress.withKey_close_of_lt (by decide), Progress.push_mk, String.ofList_toList]
    at standsNext
  exact ⟨next, toTimeout.trans toNext, standsNext⟩

theorem readAll_initialText
    {name : String} (isLine : IsPlainLine name.toList) (fuel : Nat) :
    ∃ last, Lexer.readAll (fuel + 26) (Lexer.start (initialText name).toList) = some last ∧
      last.tokens = initialTokens [.scalar true name] := by
  have isCodegen : IsKey "codegen" := by decide
  have isStore : IsKey "store" := by decide
  have stands := Lexer.Stands.start (initialText name).toList
  rw [toList_initialText, initialRest] at stands ⊢
  obtain ⟨_, toCodegen, standsCodegen⟩ :=
    exists_reads_directories isLine (isCodegen.startsToken _) stands
  obtain ⟨_, toStore, standsStore⟩ :=
    exists_reads_codegen (isStore.startsToken _) standsCodegen
  obtain ⟨_, toEnd, standsEnd⟩ := exists_reads_store standsStore
  obtain ⟨last, isLast, isSlots⟩ := Lexer.exists_readAll_end
    (standsEnd.ready (fun isMark => nomatch isMark) (fun _ isFirst => nomatch isFirst)) rfl fuel
  have reads := (toCodegen.trans toStore).trans toEnd
  refine ⟨last, (reads (fuel + 1)).trans isLast, ?_⟩
  rw [Lexer.tokens, isSlots]
  rfl

/-! ## The settings -/

theorem all_isAllowed_initialText
    (name : String) :
    (initialText name).toList.all isAllowed = name.toList.all isAllowed := by
  have inFront : "# chanweave project configuration".toList.all isAllowed = true := by decide
  have inKey : "name".toList.all isAllowed = true := by decide
  have inRest : initialRest.all isAllowed = true := by decide +kernel
  have inSigns : [':', ' ', '\n'].all isAllowed = true := by decide
  simp only [List.all_cons, List.all_nil, Bool.and_true, Bool.and_eq_true] at inSigns
  simp only [toList_initialText, lineText, entryText, List.all_append, List.all_cons,
    List.replicate_zero, List.replicate_succ, List.nil_append, List.cons_append, inFront, inKey,
    inRest, inSigns, Bool.true_and, Bool.and_true]

theorem tokensOf?_initialText
    {name : String} (isLine : IsPlainLine name.toList)
    (areAllowed : name.toList.all isAllowed = true) :
    tokensOf? (initialText name).toList = some (initialTokens [.scalar true name]) := by
  have enough : 26 ≤ (initialText name).toList.length + 2 := by
    have inFront : "# chanweave project configuration".toList.length = 33 := by decide
    rw [toList_initialText, lineText, List.length_append, inFront]
    omega
  obtain ⟨last, isLast, areTokens⟩ :=
    readAll_initialText isLine ((initialText name).toList.length + 2 - 26)
  rw [Nat.sub_add_cancel enough] at isLast
  rw [tokensOf?, if_pos ((all_isAllowed_initialText name).trans areAllowed), isLast, Option.map_some,
    areTokens]

/-- Where there is no name its tokens are missing. -/
theorem tokensOf?_initialText_empty :
    tokensOf? (initialText "").toList = some (initialTokens []) := by
  rw [toList_initialText, initialRest]
  decide +kernel

/-- The document of the first settings. -/
def initialNode (name : String) : Yaml.Node :=
  .mapping
    [(.scalar true "name", .scalar true name),
      (.scalar true "graphs_dir", .scalar true "graphs"),
      (.scalar true "output_dir", .scalar true "gen"),
      (.scalar true "codegen",
        .mapping
          [(.scalar true "format", .scalar true "true"),
            (.scalar true "gofmt", .scalar true "gofmt"),
            (.scalar true "go", .scalar true "go")]),
      (.scalar true "store", .mapping [(.scalar true "save_timeout_ms", .scalar true "5000")])]

theorem document_initialTokens
    (name : String) :
    ((Compose.document (8 * (initialTokens [.scalar true name]).length + 8)).run
      ⟨initialTokens [.scalar true name], [], []⟩).map Prod.fst = some (initialNode name) := rfl

theorem document_initialTokens_empty :
    ((Compose.document (8 * (initialTokens []).length + 8)).run
      ⟨initialTokens [], [], []⟩).map Prod.fst = some (initialNode "") := rfl

theorem ofNode?_initialNode
    (name : String) :
    ofNode? (initialNode name) = some (ofName name) := rfl

/-- A name that stands in the first settings as it is: nothing at all, or a plain line. -/
def IsPlainName (name : String) : Prop :=
  name = "" ∨ name.toList.all isAllowed = true ∧ IsPlainLine name.toList

/-- The first settings are those of their name where the name is plain. -/
theorem ofText_initialText
    {name : String} (isPlain : IsPlainName name) :
    ofText (initialText name) = .ok (ofName name) := by
  have isNode : Yaml.Node.ofText? (initialText name) = some (initialNode name) := by
    rcases isPlain with rfl | ⟨areAllowed, isLine⟩
    · rw [Yaml.Node.ofText?, tokensOf?_initialText_empty]
      exact document_initialTokens_empty
    · rw [Yaml.Node.ofText?, tokensOf?_initialText isLine areAllowed]
      exact document_initialTokens name
  rw [ofText, isNode, Option.bind_some, ofNode?_initialNode]

end Pipework.Settings
