import Pipework.Yaml.Record

/-!
# The texts of a document

A text in the document of some tokens is that of a scalar among them, or it is the empty text of a
node that is not written (`Yaml.Node.mem_tokens_of_hasText`).
-/

namespace Pipework.Yaml

/-- Whether a text stands in a node. -/
inductive Node.HasText : Node → String → Prop
  | scalar {isPlain : Bool} {text : String} : HasText (.scalar isPlain text) text
  | item {items : List Node} {item : Node} {text : String} (isItem : item ∈ items)
      (inItem : HasText item text) : HasText (.sequence items) text
  | name {entries : List (Node × Node)} {name value : Node} {text : String}
      (isEntry : (name, value) ∈ entries) (inName : HasText name text) :
      HasText (.mapping entries) text
  | value {entries : List (Node × Node)} {name value : Node} {text : String}
      (isEntry : (name, value) ∈ entries) (inValue : HasText value text) :
      HasText (.mapping entries) text

namespace Compose

variable {known : String → Prop}

/-- Whether all texts in a node are known. -/
def NodeIsKnown (known : String → Prop) (node : Node) : Prop :=
  ∀ text, node.HasText text → known text

/-- Whether all texts in the entries of a mapping are known. -/
def EntriesAreKnown (known : String → Prop) (entries : List (Node × Node)) : Prop :=
  ∀ entry ∈ entries, NodeIsKnown known entry.1 ∧ NodeIsKnown known entry.2

/-- A state of reading in which all texts are known. -/
structure IsKnown (known : String → Prop) (composer : Composer) : Prop where
  tokens : ∀ isPlain text, .scalar isPlain text ∈ composer.tokens → known text
  anchors : ∀ anchor ∈ composer.anchors, NodeIsKnown known anchor.2

theorem nodeIsKnown_scalar
    {isPlain : Bool} {text : String} (isKnown : known text) :
    NodeIsKnown known (.scalar isPlain text) := by
  rintro _ ⟨⟩
  exact isKnown

theorem nodeIsKnown_absent
    (noText : known "") :
    NodeIsKnown known .absent :=
  nodeIsKnown_scalar noText

theorem nodeIsKnown_loop :
    NodeIsKnown known .loop := nofun

theorem nodeIsKnown_sequence
    {items : List Node} (areKnown : ∀ item ∈ items, NodeIsKnown known item) :
    NodeIsKnown known (.sequence items) := by
  rintro text ⟨⟩
  rename_i isItem inItem
  exact areKnown _ isItem text inItem

theorem nodeIsKnown_mapping
    {entries : List (Node × Node)} (areKnown : EntriesAreKnown known entries) :
    NodeIsKnown known (.mapping entries) := by
  rintro text ⟨⟩
  · rename_i isEntry inName
    exact (areKnown _ isEntry).1 text inName
  · rename_i isEntry inValue
    exact (areKnown _ isEntry).2 text inValue

/-! ## Steps -/

variable {α β : Type} {step : Compose α} {holds : α → Prop}

/-- A step from known texts to known texts, whose result is as said. -/
def Gives (known : String → Prop) (step : Compose α) (holds : α → Prop) : Prop :=
  ∀ composer result next, IsKnown known composer → step composer = some (result, next) →
    IsKnown known next ∧ holds result

theorem gives_pure
    {result : α} (isGiven : holds result) :
    Gives known (pure result) holds := by
  intro composer found next isKnown isDone
  obtain ⟨rfl, rfl⟩ := Prod.mk.inj (Option.some.inj isDone)
  exact ⟨isKnown, isGiven⟩

theorem gives_bind
    {onwards : α → Compose β} {holdsBehind : β → Prop} (gives : Gives known step holds)
    (givesBehind : ∀ result, holds result → Gives known (onwards result) holdsBehind) :
    Gives known (step >>= onwards) holdsBehind := by
  intro composer found next isKnown isDone
  obtain ⟨⟨result, between⟩, isStep, isRest⟩ := Option.bind_eq_some_iff.mp isDone
  obtain ⟨isKnownBetween, isGiven⟩ := gives composer result between isKnown isStep
  exact givesBehind result isGiven between found next isKnownBetween isRest

theorem gives_fail :
    Gives known (fail : Compose α) holds := nofun

/-- A step that is only taken at times. -/
theorem gives_of_times
    {condition : Prop} [Decidable condition] {before : Compose Unit} {onwards : Unit → Compose α}
    (gives : Gives known before fun _ => True)
    (givesBehind : ∀ result, Gives known (onwards result) holds) :
    Gives known (if condition then before >>= onwards else onwards ()) holds := by
  split
  · exact gives_bind gives fun result _ => givesBehind result
  · exact givesBehind ()

theorem gives_get :
    Gives known get (IsKnown known) := by
  intro composer result next isKnown isDone
  obtain ⟨rfl, rfl⟩ := Prod.mk.inj (Option.some.inj isDone)
  exact ⟨isKnown, isKnown⟩

theorem gives_next? :
    Gives known next? fun token? =>
      ∀ isPlain text, token? = some (.scalar isPlain text) → known text := by
  intro composer token? next isKnown isDone
  obtain ⟨rfl, rfl⟩ := Prod.mk.inj (Option.some.inj isDone)
  refine ⟨isKnown, fun isPlain text isNext => isKnown.tokens isPlain text ?_⟩
  exact List.mem_of_mem_head? isNext

theorem gives_skip :
    Gives known skip fun _ => True := by
  intro composer result next isKnown isDone
  obtain ⟨rfl, rfl⟩ := Prod.mk.inj (Option.some.inj isDone)
  exact ⟨⟨fun isPlain text member => isKnown.tokens isPlain text (List.mem_of_mem_tail member),
    isKnown.anchors⟩, trivial⟩

theorem gives_nextIs
    (choices : List Token) :
    Gives known (nextIs choices) fun _ => True :=
  gives_bind gives_next? fun _ _ => gives_pure trivial

theorem gives_expect
    (token : Token) :
    Gives known (expect token) fun _ => True := by
  refine gives_bind (gives_nextIs _) fun isNext _ => ?_
  split
  · exact gives_skip
  · exact gives_fail

theorem gives_anchored
    (name : String) :
    Gives known (anchored name) (NodeIsKnown known) := by
  refine gives_bind gives_get fun composer isKnown => ?_
  split
  · rename_i node isFound
    obtain ⟨front, back, areAnchors, -⟩ := List.lookup_eq_some_iff.mp isFound
    exact gives_pure (isKnown.anchors (name, node) (by simp [areAnchors]))
  · exact gives_fail

theorem gives_openAnchor
    (name : String) :
    Gives known (openAnchor name) fun _ => True := by
  intro composer result next isKnown isDone
  obtain ⟨rfl, rfl⟩ := Prod.mk.inj (Option.some.inj isDone)
  exact ⟨⟨isKnown.tokens, List.forall_mem_cons.mpr ⟨nodeIsKnown_loop, isKnown.anchors⟩⟩, trivial⟩

theorem gives_closeAnchor
    (slot : Nat) (name : String) {node : Node} (isKnownNode : NodeIsKnown known node) :
    Gives known (closeAnchor slot name node) fun _ => True := by
  intro composer result next isKnown isDone
  obtain ⟨rfl, rfl⟩ := Prod.mk.inj (Option.some.inj isDone)
  refine ⟨⟨isKnown.tokens, fun anchor member => ?_⟩, trivial⟩
  rcases List.mem_or_eq_of_mem_set member with isOld | rfl
  · exact isKnown.anchors anchor isOld
  · exact isKnownNode

theorem gives_requireHandle
    (handle : String) :
    Gives known (requireHandle handle) fun _ => True := by
  refine gives_bind gives_get fun composer _ => ?_
  split
  · exact gives_pure trivial
  · exact gives_fail

theorem gives_anchor? :
    Gives known anchor? fun _ => True := by
  refine gives_bind gives_next? fun token? _ => ?_
  split
  · exact gives_bind gives_skip fun _ _ => gives_pure trivial
  · exact gives_pure trivial

theorem gives_hasTag :
    Gives known hasTag fun _ => True := by
  refine gives_bind gives_next? fun token? _ => ?_
  split
  · exact gives_bind gives_skip fun _ _ =>
      gives_bind (gives_requireHandle _) fun _ _ => gives_pure trivial
  · exact gives_pure trivial

theorem gives_properties :
    Gives known properties fun _ => True := by
  refine gives_bind gives_anchor? fun anchor? _ => ?_
  split
  · exact gives_bind gives_hasTag fun _ _ => gives_pure trivial
  · refine gives_bind gives_hasTag fun hasTag _ => ?_
    split
    · exact gives_bind gives_anchor? fun _ _ => gives_pure trivial
    · exact gives_pure trivial

/-! ## Nodes -/

/-- What the readers of nodes give that can still take so many steps. -/
structure NodesAreKnown (known : String → Prop) (fuel : Nat) : Prop where
  node : ∀ isBlock isIndentless,
    Gives known (node fuel isBlock isIndentless) (NodeIsKnown known)
  content : ∀ isBlock isIndentless isMarked,
    Gives known (content fuel isBlock isIndentless isMarked) (NodeIsKnown known)
  nodeBefore : ∀ isBlock isIndentless ends,
    Gives known (nodeBefore fuel isBlock isIndentless ends) (NodeIsKnown known)
  blockItems : Gives known (blockItems fuel) fun items => ∀ item ∈ items, NodeIsKnown known item
  indentlessItems :
    Gives known (indentlessItems fuel) fun items => ∀ item ∈ items, NodeIsKnown known item
  blockValue : Gives known (blockValue fuel) (NodeIsKnown known)
  blockEntries : Gives known (blockEntries fuel) (EntriesAreKnown known)
  flowValue : ∀ ends, Gives known (flowValue fuel ends) (NodeIsKnown known)
  flowPair : Gives known (flowPair fuel) (NodeIsKnown known)
  flowItems : ∀ isFirst,
    Gives known (flowItems fuel isFirst) fun items => ∀ item ∈ items, NodeIsKnown known item
  flowEntries : ∀ isFirst, Gives known (flowEntries fuel isFirst) (EntriesAreKnown known)

variable {fuel : Nat}

theorem gives_node
    (nodes : NodesAreKnown known fuel) (isBlock isIndentless : Bool) :
    Gives known (node (fuel + 1) isBlock isIndentless) (NodeIsKnown known) := by
  rw [node]
  refine gives_bind gives_next? fun token? _ => ?_
  split
  · exact gives_bind gives_skip fun _ _ => gives_anchored _
  · refine gives_bind gives_properties fun before _ => ?_
    split
    · exact nodes.content isBlock isIndentless _
    · refine gives_bind (gives_openAnchor _) fun slot _ => ?_
      refine gives_bind (nodes.content isBlock isIndentless true)
        fun read isKnownRead => ?_
      exact gives_bind (gives_closeAnchor slot _ isKnownRead) fun _ _ =>
        gives_pure isKnownRead

theorem gives_content
    (noText : known "") (nodes : NodesAreKnown known fuel) (isBlock isIndentless isMarked : Bool) :
    Gives known (content (fuel + 1) isBlock isIndentless isMarked) (NodeIsKnown known) := by
  rw [content]
  refine gives_bind gives_next? fun token? isKnownText => ?_
  split
  · exact gives_bind gives_skip fun _ _ =>
      gives_pure (nodeIsKnown_scalar (isKnownText _ _ rfl))
  · exact gives_bind gives_skip fun _ _ =>
      gives_bind (nodes.flowItems true) fun _ areKnown =>
        gives_pure (nodeIsKnown_sequence areKnown)
  · exact gives_bind gives_skip fun _ _ =>
      gives_bind (nodes.flowEntries true) fun _ areKnown =>
        gives_pure (nodeIsKnown_mapping areKnown)
  · exact gives_bind gives_skip fun _ _ =>
      gives_bind nodes.blockItems fun _ areKnown =>
        gives_pure (nodeIsKnown_sequence areKnown)
  · exact gives_bind gives_skip fun _ _ =>
      gives_bind nodes.blockEntries fun _ areKnown =>
        gives_pure (nodeIsKnown_mapping areKnown)
  · split
    · exact gives_bind nodes.indentlessItems fun _ areKnown =>
        gives_pure (nodeIsKnown_sequence areKnown)
    · split
      · exact gives_pure (nodeIsKnown_absent noText)
      · exact gives_fail
  · split
    · exact gives_pure (nodeIsKnown_absent noText)
    · exact gives_fail

theorem gives_nodeBefore
    (noText : known "") (nodes : NodesAreKnown known fuel) (isBlock isIndentless : Bool)
    (ends : List Token) :
    Gives known (nodeBefore (fuel + 1) isBlock isIndentless ends) (NodeIsKnown known) := by
  rw [nodeBefore]
  refine gives_bind (gives_nextIs ends) fun isEnd _ => ?_
  split
  · exact gives_pure (nodeIsKnown_absent noText)
  · exact nodes.node isBlock isIndentless

theorem gives_blockItems
    (nodes : NodesAreKnown known fuel) :
    Gives known (blockItems (fuel + 1)) fun items => ∀ item ∈ items, NodeIsKnown known item := by
  rw [blockItems]
  refine gives_bind gives_next? fun token? _ => ?_
  split
  · refine gives_bind gives_skip fun _ _ => ?_
    refine gives_bind (nodes.nodeBefore true false _) fun first isKnown => ?_
    exact gives_bind nodes.blockItems fun others areKnown =>
      gives_pure (List.forall_mem_cons.mpr ⟨isKnown, areKnown⟩)
  · exact gives_bind gives_skip fun _ _ => gives_pure nofun
  · exact gives_fail

theorem gives_indentlessItems
    (nodes : NodesAreKnown known fuel) :
    Gives known (indentlessItems (fuel + 1)) fun items =>
      ∀ item ∈ items, NodeIsKnown known item := by
  rw [indentlessItems]
  refine gives_bind (gives_nextIs _) fun isEntry _ => ?_
  split
  · refine gives_bind gives_skip fun _ _ => ?_
    refine gives_bind (nodes.nodeBefore true false _) fun first isKnown => ?_
    exact gives_bind nodes.indentlessItems fun others areKnown =>
      gives_pure (List.forall_mem_cons.mpr ⟨isKnown, areKnown⟩)
  · exact gives_pure nofun

theorem gives_blockValue
    (noText : known "") (nodes : NodesAreKnown known fuel) :
    Gives known (blockValue (fuel + 1)) (NodeIsKnown known) := by
  rw [blockValue]
  refine gives_bind (gives_nextIs _) fun isValue _ => ?_
  split
  · exact gives_bind gives_skip fun _ _ => nodes.nodeBefore true true _
  · exact gives_pure (nodeIsKnown_absent noText)

theorem gives_blockEntries
    (nodes : NodesAreKnown known fuel) :
    Gives known (blockEntries (fuel + 1)) (EntriesAreKnown known) := by
  rw [blockEntries]
  refine gives_bind gives_next? fun token? _ => ?_
  split
  · refine gives_bind gives_skip fun _ _ => ?_
    refine gives_bind (nodes.nodeBefore true true _) fun name isKnown => ?_
    refine gives_bind nodes.blockValue fun value isKnownValue => ?_
    exact gives_bind nodes.blockEntries fun others areKnown =>
      gives_pure (List.forall_mem_cons.mpr ⟨⟨isKnown, isKnownValue⟩, areKnown⟩)
  · exact gives_bind gives_skip fun _ _ => gives_pure nofun
  · exact gives_fail

theorem gives_flowValue
    (noText : known "") (nodes : NodesAreKnown known fuel) (ends : List Token) :
    Gives known (flowValue (fuel + 1) ends) (NodeIsKnown known) := by
  rw [flowValue]
  refine gives_bind (gives_nextIs _) fun isValue _ => ?_
  split
  · exact gives_bind gives_skip fun _ _ => nodes.nodeBefore false false ends
  · exact gives_pure (nodeIsKnown_absent noText)

theorem gives_flowPair
    (noText : known "") (nodes : NodesAreKnown known fuel) :
    Gives known (flowPair (fuel + 1)) (NodeIsKnown known) := by
  rw [flowPair]
  refine gives_bind (gives_nextIs _) fun isNameless _ => ?_
  have onwards {name : Node} (isKnown : NodeIsKnown known name) : Gives known
      (do
        let value ← flowValue fuel [.flowEntry, .flowSequenceEnd]
        return .mapping [(name, value)])
      (NodeIsKnown known) :=
    gives_bind (nodes.flowValue _) fun value isKnownValue =>
      gives_pure (nodeIsKnown_mapping
        (List.forall_mem_singleton.mpr ⟨isKnown, isKnownValue⟩))
  split
  · exact gives_bind gives_skip fun _ _ => gives_bind (gives_pure (nodeIsKnown_absent noText)) fun _ => onwards
  · exact gives_bind (nodes.node false false) fun _ => onwards

theorem gives_flowItems
    (nodes : NodesAreKnown known fuel) (isFirst : Bool) :
    Gives known (flowItems (fuel + 1) isFirst) fun items =>
      ∀ item ∈ items, NodeIsKnown known item := by
  rw [flowItems]
  refine gives_bind (gives_nextIs _) fun isEnd _ => ?_
  split
  · exact gives_bind gives_skip fun _ _ => gives_pure nofun
  · refine gives_of_times (gives_expect _) fun _ => ?_
    refine gives_bind gives_next? fun token? _ => ?_
    split
    · exact gives_bind gives_skip fun _ _ => gives_pure nofun
    · refine gives_bind gives_skip fun _ _ => ?_
      refine gives_bind nodes.flowPair fun pair isKnown => ?_
      exact gives_bind (nodes.flowItems false) fun others areKnown =>
        gives_pure (List.forall_mem_cons.mpr ⟨isKnown, areKnown⟩)
    · refine gives_bind (nodes.node false false) fun first isKnown => ?_
      exact gives_bind (nodes.flowItems false) fun others areKnown =>
        gives_pure (List.forall_mem_cons.mpr ⟨isKnown, areKnown⟩)

theorem gives_flowEntries
    (noText : known "") (nodes : NodesAreKnown known fuel) (isFirst : Bool) :
    Gives known (flowEntries (fuel + 1) isFirst) (EntriesAreKnown known) := by
  rw [flowEntries]
  refine gives_bind (gives_nextIs _) fun isEnd _ => ?_
  split
  · exact gives_bind gives_skip fun _ _ => gives_pure nofun
  · refine gives_of_times (gives_expect _) fun _ => ?_
    refine gives_bind gives_next? fun token? _ => ?_
    split
    · exact gives_bind gives_skip fun _ _ => gives_pure nofun
    · refine gives_bind gives_skip fun _ _ => ?_
      refine gives_bind (nodes.nodeBefore false false _) fun name isKnown => ?_
      refine gives_bind (nodes.flowValue _) fun value isKnownValue => ?_
      exact gives_bind (nodes.flowEntries false) fun others areKnown =>
        gives_pure (List.forall_mem_cons.mpr ⟨⟨isKnown, isKnownValue⟩, areKnown⟩)
    · refine gives_bind (nodes.node false false) fun name isKnown => ?_
      exact gives_bind (nodes.flowEntries false) fun others areKnown =>
        gives_pure (List.forall_mem_cons.mpr ⟨⟨isKnown, (nodeIsKnown_absent noText)⟩, areKnown⟩)

theorem nodesAreKnown
    (noText : known "") (fuel : Nat) :
    NodesAreKnown known fuel := by
  induction fuel with
  | zero => constructor <;> intros <;> exact gives_fail
  | succ fuel nodes =>
      exact ⟨gives_node nodes, gives_content noText nodes, gives_nodeBefore noText nodes,
        gives_blockItems nodes, gives_indentlessItems nodes, gives_blockValue noText nodes,
        gives_blockEntries nodes, gives_flowValue noText nodes, gives_flowPair noText nodes,
        gives_flowItems nodes, gives_flowEntries noText nodes⟩

/-! ## Documents -/

theorem gives_declare
    (handle : String) :
    Gives known
      (modify fun composer => { composer with handles := handle :: composer.handles })
      fun _ => True := by
  intro composer result next isKnown isDone
  obtain ⟨rfl, rfl⟩ := Prod.mk.inj (Option.some.inj isDone)
  exact ⟨⟨isKnown.tokens, isKnown.anchors⟩, trivial⟩

theorem gives_directives
    (fuel : Nat) (hasVersion : Bool) :
    Gives known (directives fuel hasVersion) fun _ => True := by
  induction fuel generalizing hasVersion with
  | zero => exact gives_fail
  | succ fuel inductionHypothesis =>
      rw [directives]
      refine gives_bind gives_next? fun token? _ => ?_
      split
      · refine gives_of_times gives_fail fun _ => ?_
        exact gives_bind gives_skip fun _ _ => inductionHypothesis true
      · refine gives_bind gives_get fun composer _ => ?_
        refine gives_of_times gives_fail fun _ => ?_
        refine gives_bind gives_skip fun _ _ => ?_
        exact gives_bind (gives_declare _) fun _ _ => inductionHypothesis hasVersion
      · exact gives_pure trivial

theorem gives_isMarked :
    Gives known isMarked fun _ => True := by
  refine gives_bind gives_next? fun token? _ => ?_
  split
  · exact gives_pure trivial
  · exact gives_pure trivial
  · exact gives_pure trivial

theorem gives_skipEnds
    (fuel : Nat) :
    Gives known (skipEnds fuel) fun _ => True := by
  induction fuel with
  | zero => exact gives_pure trivial
  | succ fuel inductionHypothesis =>
      rw [skipEnds]
      refine gives_bind (gives_nextIs _) fun isEnd _ => ?_
      split
      · exact gives_bind gives_skip fun _ _ => inductionHypothesis
      · exact gives_pure trivial

/-- Nothing may follow a document. -/
theorem gives_end
    {root : Node} (isKnown : NodeIsKnown known root) (fuel : Nat) :
    Gives known
      (do
        skipEnds fuel
        if (← next?).isSome then fail
        return root)
      (NodeIsKnown known) :=
  gives_bind (gives_skipEnds fuel) fun _ _ => gives_bind gives_next? fun _ _ =>
    gives_of_times gives_fail fun _ => gives_pure isKnown

theorem gives_document
    (noText : known "") (fuel : Nat) :
    Gives known (document fuel) (NodeIsKnown known) := by
  have givesRoot := (nodesAreKnown noText fuel).node true false
  rw [document]
  refine gives_bind gives_isMarked fun isMarkedHere _ => ?_
  split
  · refine gives_bind (gives_directives fuel false) fun _ _ => ?_
    refine gives_bind (gives_expect .documentStart) fun _ _ => ?_
    refine gives_bind gives_next? fun _ _ => gives_bind gives_isMarked fun _ _ => ?_
    refine gives_bind (gives_nextIs [.documentEnd]) fun _ _ => ?_
    dsimp only
    split
    · exact gives_bind (gives_pure (nodeIsKnown_absent noText)) fun _ isKnown => gives_end isKnown fuel
    · exact gives_bind givesRoot fun _ isKnown => gives_end isKnown fuel
  · exact gives_bind givesRoot fun _ isKnown => gives_end isKnown fuel

end Compose

/-- A text in a document is that of a scalar token, or it is empty. -/
theorem Node.mem_tokens_of_hasText
    {source text : String} {tokens : List Token} {root : Node}
    (areTokens : tokensOf? source.toList = some tokens) (isRead : Node.ofText? source = some root)
    (hasText : root.HasText text) :
    text = "" ∨ ∃ isPlain, .scalar isPlain text ∈ tokens := by
  rw [Node.ofText?, areTokens, Option.bind_eq_bind, Option.bind_some] at isRead
  obtain ⟨⟨found, composer⟩, isDone, isRead⟩ := Option.bind_eq_some_iff.mp isRead
  obtain rfl := Option.some.inj isRead
  have isKnown : Compose.IsKnown
      (fun text => text = "" ∨ ∃ isPlain, .scalar isPlain text ∈ tokens) ⟨tokens, [], []⟩ :=
    ⟨fun isPlain text member => Or.inr ⟨isPlain, member⟩, nofun⟩
  exact (Compose.gives_document (Or.inl rfl) _ _ _ _ isKnown isDone).2 text hasText

/-! ## Records -/

theorem exists_of_mem_of_mapM
    {α β : Type} {step : α → Option β} {items : List α} {results : List β} {result : β}
    (isMapped : items.mapM step = some results) (member : result ∈ results) :
    ∃ item ∈ items, step item = some result := by
  induction items generalizing results with
  | nil =>
      obtain rfl := Option.some.inj isMapped
      exact absurd member List.not_mem_nil
  | cons item items inductionHypothesis =>
      rw [List.mapM_cons] at isMapped
      obtain ⟨first, isFirst, isMapped⟩ := Option.bind_eq_some_iff.mp isMapped
      obtain ⟨others, areOthers, isMapped⟩ := Option.bind_eq_some_iff.mp isMapped
      obtain rfl := Option.some.inj isMapped
      rcases List.mem_cons.mp member with rfl | inOthers
      · exact ⟨item, List.mem_cons_self, isFirst⟩
      · obtain ⟨found, isItem, isFound⟩ := inductionHypothesis areOthers inOthers
        exact ⟨found, List.mem_cons_of_mem _ isItem, isFound⟩

namespace Node

variable {node : Node} {members : List (String × Node)}

theorem hasText_of_text?
    {text : String} (isText : node.text? = some text) :
    node.HasText text := by
  cases node with
  | scalar isPlain found =>
      obtain rfl := Option.some.inj isText
      exact .scalar
  | sequence items => exact nomatch isText
  | mapping entries => exact nomatch isText
  | loop => exact nomatch isText

theorem hasText_of_member
    {member : String × Node} {text : String} (areMembers : node.members? = some members)
    (isMember : member ∈ members) (inMember : member.2.HasText text) :
    node.HasText text := by
  unfold members? at areMembers
  split at areMembers
  · obtain ⟨⟨name, value⟩, isEntry, isNamed⟩ := exists_of_mem_of_mapM areMembers isMember
    obtain ⟨found, -, rfl⟩ := Option.map_eq_some_iff.mp isNamed
    exact .value isEntry inMember
  · obtain rfl := Option.some.inj areMembers
    exact absurd isMember List.not_mem_nil
  · exact nomatch areMembers

/-- The text of a member that has to be there. -/
theorem hasText_of_requiredMember
    {name text : String} (areMembers : node.members? = some members)
    (isRead : requiredMember members name Node.text? = some text) :
    node.HasText text := by
  rw [requiredMember] at isRead
  split at isRead
  · rename_i member isFiltered
    have isMember : member ∈ members :=
      (List.mem_filter.mp (isFiltered ▸ List.mem_singleton_self member)).1
    exact hasText_of_member areMembers isMember (hasText_of_text? isRead)
  · exact nomatch isRead

end Node

end Pipework.Yaml
