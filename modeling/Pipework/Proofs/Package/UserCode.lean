import Pipework.Proofs.Package.Files
import Pipework.Proofs.Text.Indent
import Pipework.Proofs.Text.Marks

/-!
# User code in the main file

The code of a phase stands in the main file with its blank end cut off and all its lines indented,
also those that continue a literal. A raw string literal of the code is kept when it is on one
line; otherwise it gets the tabs of the indentation (`Graph.package_keeps_literal_iff`).
-/

namespace Pipework

namespace Go

/-- The mark on either side of a raw string literal. -/
def rawQuote : Char := '\x60'

/-- The raw string literal that spells a text. -/
def rawLiteral (text : List Char) : List Char := rawQuote :: text ++ [rawQuote]

/-- Cutting off the blank end of code reaches no literal. -/
theorem toList_trimEnd_of_literal
    {code : String} {front text back : List Char}
    (parts : code.toList = front ++ rawLiteral text ++ back) :
    (Text.trimEnd code).toList =
      front ++ rawQuote :: (text ++ rawQuote :: Text.dropBlankEnd back) := by
  have split : code.toList = (front ++ rawQuote :: text) ++ rawQuote :: back := by
    rw [parts, rawLiteral]
    simp only [List.append_assoc, List.cons_append, List.nil_append]
  rw [Text.trimEnd, String.toList_ofList, split, Text.dropBlankEnd_append_cons (by decide),
    List.append_assoc, List.cons_append]

end Go

namespace Source

theorem mem_nodeLines_of_code
    {wired : WiredNode} {code : Part.Code} (isCode : wired.node.part = .code code) {levels : Nat}
    {phase : String} (isPhase : (levels, phase) ∈ [(1, code.head), (3, code.body), (1, code.tail)])
    {line : String} (isLine : line ∈ codeLines levels phase) :
    line ∈ nodeLines wired := by
  have phases : wired.node.part.phases wired.bindings = ⟨code.head, code.body, code.tail⟩ := by
    rw [isCode]
    rfl
  simp only [List.mem_cons, Prod.mk.injEq, List.not_mem_nil, or_false] at isPhase
  rw [nodeLines, phases]
  simp only [List.mem_append]
  rcases isPhase with ⟨rfl, rfl⟩ | ⟨rfl, rfl⟩ | ⟨rfl, rfl⟩ <;>
    simp only [isLine, true_or, or_true]

theorem exists_around_phase
    {graph : Graph} {node : Node} (enabled : node ∈ graph.enabledNodes) {code : Part.Code}
    (isCode : node.part = .code code) {levels : Nat} {phase : String}
    (isPhase : (levels, phase) ∈ [(1, code.head), (3, code.body), (1, code.tail)])
    (filled : (Text.indent levels (Text.trimEnd phase)).toList ≠ []) (package : String) :
    ∃ front back, (main graph package).toList =
      front ++ (Text.indent levels (Text.trimEnd phase)).toList ++ '\n' :: back := by
  have inCode : Text.indent levels (Text.trimEnd phase) ∈ codeLines levels phase := by
    have notEmpty : ¬ (Text.indent levels (Text.trimEnd phase)).isEmpty = true := by
      rwa [String.isEmpty_iff, ← String.toList_eq_nil_iff]
    rw [codeLines, if_neg notEmpty]
    exact List.mem_singleton_self _
  have isWired : node.wired graph.arguments ∈ graph.wiring.nodes := List.mem_map_of_mem enabled
  have inFunctions : Text.indent levels (Text.trimEnd phase) ∈
      graph.wiring.nodes.flatMap nodeLines :=
    List.mem_flatMap.mpr ⟨_, isWired, mem_nodeLines_of_code isCode isPhase inCode⟩
  refine Text.exists_around_line ?_
  exact List.mem_append_left _ (List.mem_append_right _ inFunctions)

end Source

namespace Graph

open Go (rawQuote rawLiteral toList_trimEnd_of_literal)

variable {graph : Graph} {node : Node} {code : Part.Code} {levels : Nat} {phase : String}
  {front text back : List Char}

/-- A raw string literal of a phase that has no other stands in the main file with tabs behind
its line feeds, so it is kept exactly when it is on one line. -/
theorem package_keeps_literal_iff
    (unproblematic : graph.problems = []) (enabled : node ∈ graph.enabledNodes)
    (isCode : node.part = .code code)
    (isPhase : (levels, phase) ∈ [(1, code.head), (3, code.body), (1, code.tail)])
    (parts : phase.toList = front ++ rawLiteral text ++ back)
    (only : rawQuote ∉ front ++ text ++ back) (noReturn : '\r' ∉ text) :
    ∃ package, graph.package = .ok package ∧ ∃ before placed behind,
      package.source.toList = before ++ placed ++ '\n' :: behind ∧
      placed = (Text.indent levels (Text.trimEnd phase)).toList ∧
      placed.count rawQuote = 2 ∧
      rawLiteral (Text.hung (List.replicate levels '\t') text) <:+: placed ∧
      (rawLiteral text <:+: placed ↔ '\n' ∉ text) := by
  have indented : List.replicate levels '\t' ≠ [] := by
    have positive : levels ≠ 0 := by
      rintro rfl
      simp at isPhase
    rwa [ne_eq, List.replicate_eq_nil_iff]
  simp only [List.mem_append, not_or] at only
  obtain ⟨⟨noFront, noText⟩, noBack⟩ := only
  have noRest : rawQuote ∉ Text.dropBlankEnd back := fun member =>
    noBack (Text.dropBlankEnd_subset back member)
  obtain ⟨opening, closing, placed, noOpening, noHung, noClosing⟩ := Text.indent_marked (by decide)
    (by decide) (by decide) (toList_trimEnd_of_literal parts) noFront noText noRest noReturn
  have filled : (Text.indent levels (Text.trimEnd phase)).toList ≠ [] := by
    rw [placed]
    exact List.append_ne_nil_of_right_ne_nil opening (List.cons_ne_nil _ _)
  obtain ⟨package, made, yields⟩ := exists_yields unproblematic
  obtain ⟨before, behind, around⟩ :=
    Source.exists_around_phase enabled isCode isPhase filled graph.packageName
  refine ⟨package, made, before, _, behind, ?_, rfl, ?_, ?_, ?_⟩
  · rw [yields.source, around]
  · rw [placed, List.count_append, List.count_cons_self, List.count_append, List.count_cons_self,
      List.count_eq_zero.mpr noOpening, List.count_eq_zero.mpr noHung,
      List.count_eq_zero.mpr noClosing]
  · rw [placed, rawLiteral, Text.marked_infix_iff noOpening noHung noClosing]
  · rw [placed, rawLiteral, Text.marked_infix_iff noOpening noHung noClosing,
      ← Text.hung_eq_self_iff indented, eq_comm]

theorem package_keeps_literal_iff_twoLiterals :
    let code : Part.Code := ⟨[], "x := \x60one\x60", "y := \x60one\ntwo\x60 + x", "", []⟩
    let graph := lone "p" true (.code code)
    graph.problems = [] ∧ ∃ package, graph.package = .ok package ∧
      rawLiteral "one".toList <:+: package.source.toList ∧
      ∃ before placed behind, package.source.toList = before ++ placed ++ '\n' :: behind ∧
        rawLiteral "one\n\t\t\ttwo".toList <:+: placed ∧
        ¬ rawLiteral "one\ntwo".toList <:+: placed := by
  intro code graph
  have unproblematic : graph.problems = [] := rfl
  have enabled : graph.nodes.values.head (by decide) ∈ graph.enabledNodes := List.mem_cons_self
  have headParts : code.head.toList = "x := ".toList ++ rawLiteral "one".toList ++ [] := by decide
  have bodyParts : code.body.toList =
      "y := ".toList ++ rawLiteral "one\ntwo".toList ++ " + x".toList := by
    decide
  obtain ⟨package, made, before, placed, behind, around, _, _, _, kept_iff⟩ :=
    package_keeps_literal_iff unproblematic enabled rfl (List.mem_cons_self : (1, code.head) ∈ _)
      headParts (by decide) (by decide)
  obtain ⟨_, again, bodyBefore, bodyPlaced, bodyBehind, bodyAround, _, _, hangs, bodyKept_iff⟩ :=
    package_keeps_literal_iff unproblematic enabled rfl
      (List.mem_cons_of_mem _ List.mem_cons_self : (3, code.body) ∈ _)
      bodyParts (by decide) (by decide)
  obtain rfl := Except.ok.inj (made.symm.trans again)
  refine ⟨unproblematic, package, made, ?_, bodyBefore, bodyPlaced, bodyBehind, bodyAround, hangs,
    ?_⟩
  · rw [around, List.append_assoc]
    exact (kept_iff.mpr (by decide)).trans
      ((List.prefix_append placed _).isInfix.trans (List.suffix_append before _).isInfix)
  · exact fun kept => bodyKept_iff.mp kept (by decide)

end Graph

end Pipework
