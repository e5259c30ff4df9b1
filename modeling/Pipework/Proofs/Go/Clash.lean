import Pipework.Pin
import Pipework.Proofs.Go.Ident

/-!
# Identifiers of a program

A program declares a function for each node and variables for each channel, beside the names that
every program declares for itself. Whatever stands in the names of a graph, what they become are
identifiers of Go, and no two of them are the same, nor is one of them a word of Go or a name of
the program (`Go.identifiers_apart`).
-/

namespace Pipework.Go

/-- The names that a program declares whatever its graph looks like, and the package on which it
calls. -/
def programNames : List String :=
  ["main", "Run", "sync", "nodeWG", "mergeWG", "instanceWG", "instanceNumber", "multiplicity",
    "w", "v"]

/-- The identifiers that a program takes from the names of its graph. -/
inductive IsGraphIdent : String → Prop where
  | node (name : String) : IsGraphIdent (nodeIdent name)
  | channel (name : String) : IsGraphIdent (channelIdent name)
  | writer (name : String) (writer : Nat) : IsGraphIdent (writerIdent name writer)

/-! ## Escaped names -/

theorem mangle_injective :
    Function.Injective mangle := by
  intro left right same
  have sameText : mangleBytes left.toUTF8.data.toList ++ [] =
      mangleBytes right.toUTF8.data.toList ++ [] := by
    rw [List.append_nil, List.append_nil]
    exact String.ofList_inj.mp same
  exact bytes_injective (mangleBytes_append_inj (Or.inl rfl) (Or.inl rfl) sameText).1

theorem isNamePart_of_isAlphanum
    {character : Char} (alphanumeric : character.isAlphanum = true) :
    isNamePart character = true := by
  rw [isNamePart, alphanumeric, Bool.true_or]

theorem isNamePart_upperHexDigit
    {value : Nat} (small : value < 16) :
    isNamePart (upperHexDigit value) = true := by
  have all : ∀ digit : Fin 16, isNamePart (upperHexDigit digit) = true := by decide
  exact all ⟨value, small⟩

/-- A byte becomes characters of identifiers, whichever way it is written. -/
theorem isNamePart_of_mem_mangleByte
    {byte : UInt8} {character : Char} (member : character ∈ mangleByte byte) :
    isNamePart character = true := by
  rcases mangleByte_cases byte with ⟨alphanumeric, word⟩ | ⟨_, word⟩ | word
  · rw [word, List.mem_singleton] at member
    exact member ▸ isNamePart_of_isAlphanum alphanumeric
  · rw [word] at member
    have isUnderscore : character = '_' := by simpa using member
    rw [isUnderscore]
    decide
  · have size := byte.toNat_lt
    rw [word] at member
    simp only [List.mem_cons, List.not_mem_nil, or_false] at member
    rcases member with rfl | rfl | rfl | rfl
    · decide
    · decide
    · exact isNamePart_upperHexDigit (by omega)
    · exact isNamePart_upperHexDigit (by omega)

theorem isNamePart_of_mem_mangleBytes
    {bytes : List UInt8} {character : Char} (member : character ∈ mangleBytes bytes) :
    isNamePart character = true := by
  obtain ⟨byte, _, inWord⟩ := List.mem_flatMap.mp member
  exact isNamePart_of_mem_mangleByte inWord

theorem isNamePart_of_mem_toString
    {number : Nat} {character : Char} (member : character ∈ (toString number).toList) :
    isNamePart character = true := by
  have inDigits : character ∈ Nat.toDigits 10 number := by
    have sameText : toString number = String.ofList (Nat.toDigits 10 number) :=
      Nat.repr_eq_ofList_toDigits
    rwa [sameText, String.toList_ofList] at member
  have digit := Nat.isDigit_of_mem_toDigits (by omega) (by omega) inDigits
  refine isNamePart_of_isAlphanum ?_
  rw [Char.isAlphanum, digit, Bool.or_true]

theorem isNamePart_of_mem_ending
    {writer : Option Nat} {character : Char} (member : character ∈ ending writer) :
    isNamePart character = true := by
  cases writer with
  | none => exact absurd member List.not_mem_nil
  | some number =>
      rcases List.mem_cons.mp member with rfl | behind
      · decide
      · rcases List.mem_cons.mp behind with rfl | inDigits
        · decide
        · exact isNamePart_of_mem_toString inDigits

/-! ## Identifiers -/

theorem isGoName_iff
    {name : String} {first : Char} {rest : List Char} (spelled : name.toList = first :: rest) :
    isGoName name = true ↔ isNameStart first = true ∧ rest.all isNamePart = true := by
  rw [isGoName, spelled, Bool.and_eq_true]

/-- An identifier has no other characters than names may have. -/
theorem isNamePart_of_isGoName
    {name : String} (isName : isGoName name = true) {character : Char}
    (member : character ∈ name.toList) :
    isNamePart character = true := by
  cases spelled : name.toList with
  | nil =>
      rw [spelled] at member
      exact absurd member List.not_mem_nil
  | cons first rest =>
      obtain ⟨isStart, areParts⟩ := (isGoName_iff spelled).mp isName
      rw [spelled] at member
      rcases List.mem_cons.mp member with rfl | inRest
      · rw [isNameStart, Bool.or_eq_true] at isStart
        rw [isNamePart, Char.isAlphanum]
        rcases isStart with alpha | underscore
        · rw [alpha, Bool.true_or, Bool.true_or]
        · rw [underscore, Bool.or_true]
      · exact List.all_eq_true.mp areParts character inRest

/-- What stands in front of the escaped name in an identifier: the word for the function of a
node, or the one for a variable of a channel. -/
inductive Opens : List Char → Prop where
  | node : Opens "node_".toList
  | channel : Opens "chan_".toList

/-- An identifier is a word for its kind, an escaped name, and perhaps the ending of a private
channel. -/
theorem IsGraphIdent.toList_eq
    {ident : String} (isIdent : IsGraphIdent ident) :
    ∃ opening bytes writer, Opens opening ∧
      ident.toList = opening ++ (mangleBytes bytes ++ ending writer) := by
  cases isIdent with
  | node name =>
      refine ⟨_, name.toUTF8.data.toList, none, Opens.node, ?_⟩
      simp [nodeIdent, mangle, ending]
  | channel name => exact ⟨_, _, none, Opens.channel, toList_channelVariable name none⟩
  | writer name number =>
      exact ⟨_, _, some number, Opens.channel, toList_channelVariable name (some number)⟩

theorem IsGraphIdent.isGoName
    {ident : String} (isIdent : IsGraphIdent ident) :
    isGoName ident = true := by
  obtain ⟨opening, bytes, writer, opens, spelled⟩ := isIdent.toList_eq
  have behindParts : (mangleBytes bytes ++ ending writer).all isNamePart = true := by
    rw [List.all_eq_true]
    intro character member
    rcases List.mem_append.mp member with inName | inEnding
    · exact isNamePart_of_mem_mangleBytes inName
    · exact isNamePart_of_mem_ending inEnding
  rw [Pipework.isGoName, spelled]
  cases opens with
  | node =>
      show (isNameStart 'n' && ("ode_".toList ++ _).all isNamePart) = true
      rw [List.all_append, behindParts]
      decide
  | channel =>
      show (isNameStart 'c' && ("han_".toList ++ _).all isNamePart) = true
      rw [List.all_append, behindParts]
      decide

/-- The fifth character of an identifier is an underscore, which sets it apart from all shorter
names and from those that are written otherwise there. -/
theorem IsGraphIdent.not_mem_of_apart
    {ident : String} (isIdent : IsGraphIdent ident) {names : List String}
    (apart : ∀ name ∈ names, name.toList[4]? ≠ some '_') :
    ident ∉ names := by
  intro member
  obtain ⟨opening, bytes, writer, opens, spelled⟩ := isIdent.toList_eq
  refine apart ident member ?_
  rw [spelled]
  cases opens <;> rfl

theorem nodeIdent_ne_channelVariable
    (node channel : String) (writer : Option Nat) :
    nodeIdent node ≠ channelVariable channel writer := by
  intro same
  have sameText := congrArg String.toList same
  rw [nodeIdent, String.toList_append, toList_channelVariable] at sameText
  exact absurd (congrArg List.head? sameText) (by simp)

/-- Names that differ become identifiers that differ; functions, variables of channels and private
variables are never the same; private variables of different channels or writers differ; and each
of them is an identifier of Go that is no word of the language and no name of the program. -/
theorem identifiers_apart :
    (∀ a b, mangle a = mangle b → a = b) ∧
      (∀ a b, nodeIdent a ≠ channelIdent b) ∧
      (∀ a b i, nodeIdent a ≠ writerIdent b i) ∧
      (∀ a b i, channelIdent a ≠ writerIdent b i) ∧
      (∀ a b i j, writerIdent a i = writerIdent b j → a = b ∧ i = j) ∧
      ∀ ident, IsGraphIdent ident →
        isGoName ident = true ∧ ident ∉ goKeywords ∧ ident ∉ programNames := by
  refine ⟨fun _ _ same => mangle_injective same,
    fun a b => nodeIdent_ne_channelVariable a b none,
    fun a b i => nodeIdent_ne_channelVariable a b (some i), ?_, ?_, ?_⟩
  · intro a b i same
    have sameVariable : channelVariable a none = channelVariable b (some i) := same
    exact absurd (channelVariable_injective sameVariable).2 nofun
  · intro a b i j same
    have sameVariable : channelVariable a (some i) = channelVariable b (some j) := same
    obtain ⟨sameChannel, sameWriter⟩ := channelVariable_injective sameVariable
    exact ⟨sameChannel, Option.some.inj sameWriter⟩
  · intro ident isIdent
    exact ⟨isIdent.isGoName, isIdent.not_mem_of_apart (by decide),
      isIdent.not_mem_of_apart (by decide)⟩

end Pipework.Go
