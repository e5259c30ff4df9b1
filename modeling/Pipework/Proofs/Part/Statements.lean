import Pipework.Proofs.Go.Block
import Pipework.Proofs.Go.Clash
import Pipework.Proofs.Part.Pins

/-!
# The statements of a part

A pin that is not bound is a nil channel: a send to it and a receive from it wait forever. A bound
pin that nobody reads from makes its writer wait. `Part.UsesBoundPins` says what the code of a part
does with its pins: it names the bound ones and no other, receives from every bound input until it
is closed, and sends to every bound output if values can reach the part at all. The code of every
part but that of a user's own is of this kind (`Part.usesBoundPins`).
-/

namespace Pipework

/-! ## Code of a part as statements -/

/-- The statements of the three phases of a part. -/
structure PhaseBlocks where
  head : Go.Block
  body : Go.Block
  tail : Go.Block
  deriving DecidableEq, Repr

namespace PhaseBlocks

/-- A part that does nothing. -/
def idle : PhaseBlocks := ⟨.done, .done, .done⟩

def phases (blocks : PhaseBlocks) : Phases :=
  ⟨blocks.head.text, blocks.body.text, blocks.tail.text⟩

def words (blocks : PhaseBlocks) : List String :=
  blocks.head.words ++ blocks.body.words ++ blocks.tail.words

def userTexts (blocks : PhaseBlocks) : List String :=
  blocks.head.userTexts ++ blocks.body.userTexts ++ blocks.tail.userTexts

def sends (blocks : PhaseBlocks) : List String :=
  blocks.head.sends ++ blocks.body.sends ++ blocks.tail.sends

def drains (blocks : PhaseBlocks) : List String :=
  blocks.head.drains ++ blocks.body.drains ++ blocks.tail.drains

/-- A part that has something to do in its instances only. -/
def ofBody (block : Go.Block) : PhaseBlocks := ⟨.done, block, .done⟩

section OfBody

variable (block : Go.Block)

theorem words_ofBody : (ofBody block).words = block.words := by
  rw [words, ofBody, Go.Block.words_done, List.nil_append, List.append_nil]

theorem userTexts_ofBody : (ofBody block).userTexts = block.userTexts :=
  List.append_nil block.userTexts

theorem sends_ofBody : (ofBody block).sends = block.sends := List.append_nil block.sends

theorem drains_ofBody : (ofBody block).drains = block.drains := List.append_nil block.drains

end OfBody

end PhaseBlocks

namespace Part

open Go (Block Line)

def Broadcast.blocks (part : Broadcast) (bindings : Bindings) : PhaseBlocks :=
  if !bindings.contains "input" then .idle
  else .ofBody (.forward "input" (boundNames bindings part.outputNames))

/-- The forwarding of some channels of a type, each by a goroutine of its own, until all of them
are closed. -/
def Join.merge (type : String) (inputs outputs : List String) : Block :=
  .plain [.own "var joinWG sync.WaitGroup"] <|
  .forEach "in" type inputs
    (.plain [.own "joinWG.Add(1)"] <|
      .spawn "in" type (.plain [.own "defer joinWG.Done()"] <| .forward "in" outputs) .done) <|
  .plain [.own "joinWG.Wait()"] .done

def Join.blocks (part : Join) (bindings : Bindings) : PhaseBlocks :=
  let bound := boundNames bindings part.inputNames
  if bound = [] then .idle
  else .ofBody (Join.merge part.type bound (boundNames bindings ["output"]))

/-- The function that decides about a value. -/
def Filter.keep (part : Filter) : Block :=
  .nest [.own "keep := func(v ", .user part.type, .own ") bool \x7b"]
    (.plain [.own "return ", .user part.predicate] .done) [.own "\x7d"] .done

/-- The sending of all that is received to some channels or to others. -/
def Filter.route (matching others : List String) : Block :=
  .drain (some "v") "input"
    (.choice "keep(v)" (.sendEach "v" matching) (.sendEach "v" others) .done) .done

def Filter.blocks (part : Filter) (bindings : Bindings) : PhaseBlocks :=
  if !bindings.contains "input" then .idle
  else
    ⟨part.keep, Filter.route (boundNames bindings ["match"]) (boundNames bindings ["nomatch"]),
      .done⟩

def Sink.blocks (bindings : Bindings) : PhaseBlocks :=
  if !bindings.contains "input" then .idle
  else .ofBody (.forward "input" [])

/-- What the handler of a server does with a request. -/
def HttpServer.handlerBlock (bindings : Bindings) : Block :=
  if bindings.contains "requests" then
    .plain [.own "req := &HTTPRequest\x7bResponseWriter: w, Request: r, done: make(chan struct\x7b\x7d)\x7d"] <|
      .send "requests" "req" <| .plain [.own "<-req.done"] .done
  else .plain [.own "http.Error(w, \"no handler connected\", http.StatusServiceUnavailable)"] .done

/-- The making of a server that listens on an address. -/
def HttpServer.setUp (address : String) (bindings : Bindings) : Block :=
  .nest [.own "srv := &http.Server\x7b"]
    (.plain [.own "Addr: ", .user address, .own ","] <|
      .nest [.own "Handler: http.HandlerFunc(func(w http.ResponseWriter, r *http.Request) \x7b"]
        (HttpServer.handlerBlock bindings) [.own "\x7d),"] .done)
    [.own "\x7d"] .done

/-- The serving of requests, by one of the instances. -/
def HttpServer.serve (address : String) : Block :=
  .nest [.own "if instanceNumber == 0 \x7b"]
    (.nest
      [.own "if err := srv.ListenAndServe(); err != nil && err != http.ErrServerClosed \x7b"]
      (.plain [.own "log.Printf(\"HTTPServer %s: %v\", ", .user address, .own ", err)"] .done)
      [.own "\x7d"] .done)
    [.own "\x7d"] .done

def HttpServer.blocks (part : HttpServer) (bindings : Bindings) : PhaseBlocks :=
  ⟨HttpServer.setUp (Go.literal part.address) bindings, HttpServer.serve (Go.literal part.address),
    .done⟩

/-- Code of a user's own. -/
def Code.blocks (code : Code) : PhaseBlocks :=
  ⟨.plain [.user code.head] .done, .plain [.user code.body] .done, .plain [.user code.tail] .done⟩

/-- The statements of a part some of whose pins are bound. -/
def blocks : Part → Bindings → PhaseBlocks
  | broadcast part, bindings => part.blocks bindings
  | code part, _ => part.blocks
  | filter part, bindings => part.blocks bindings
  | httpServer part, bindings => part.blocks bindings
  | join part, bindings => part.blocks bindings
  | sink _, bindings => Sink.blocks bindings

/-- The Go that users write in the configuration of a part. -/
def userTexts : Part → List String
  | broadcast part => [part.type]
  | code part => [part.head, part.body, part.tail]
  | filter part => [part.type, part.predicate]
  | httpServer part => [Go.literal part.address]
  | join part => [part.type]
  | sink part => [part.type]

/-! ## What the statements do with the pins -/

/-- The names of the pins of a direction, in the order of the pins. -/
def pinNames (part : Part) (direction : Direction) : List String :=
  (part.pins.filter fun pin => pin.direction = direction).map Pin.name

/-- Whether values can reach a part: one of its inputs is bound, or it takes them from elsewhere,
as a server does. -/
def isFed (part : Part) (bindings : Bindings) : Bool :=
  decide (part.kind = .httpServer) || (part.pinNames .input).any bindings.contains

/-- The code of a part, printed from statements, uses the bound pins and no other. -/
structure UsesBoundPins (part : Part) (bindings : Bindings) (blocks : PhaseBlocks) : Prop where
  printed : part.phases bindings = blocks.phases
  /-- What is set apart as a user's is in the configuration. -/
  user : ∀ text ∈ blocks.userTexts, text ∈ part.userTexts
  /-- The pins that the code names, in the order in which it does. -/
  named : blocks.words.filter (· ∈ part.pins.map Pin.name) =
    if part.isFed bindings then boundNames bindings (part.pins.map Pin.name) else []
  drained : blocks.drains = boundNames bindings (part.pinNames .input)
  sent : blocks.sends =
    if part.isFed bindings then boundNames bindings (part.pinNames .output) else []

/-! ## Names of pins -/

section Names

open Go (IsWord)

theorem isWord_of_mem_numberedNames
    {stem name : String} {count : Nat} (stemIsWord : IsWord stem)
    (member : name ∈ numberedNames stem count) :
    IsWord name := by
  obtain ⟨index, _, rfl⟩ := List.mem_map.mp member
  refine ⟨?_, ?_⟩
  · intro empty
    rw [String.append_eq_empty_iff] at empty
    exact stemIsWord.1 empty.1
  · rw [String.toList_append, List.all_append, stemIsWord.2, Bool.true_and, List.all_eq_true]
    intro character inNumber
    exact Go.isNamePart_of_mem_toString inNumber

theorem mem_of_mem_boundNames
    {bindings : Bindings} {names : List String} {name : String}
    (member : name ∈ boundNames bindings names) :
    name ∈ names :=
  List.mem_of_mem_filter member

theorem boundNames_cons
    {bindings : Bindings} {name : String} (isBound : bindings.contains name = true)
    (names : List String) :
    boundNames bindings (name :: names) = name :: boundNames bindings names :=
  List.filter_cons_of_pos isBound

theorem boundNames_singleton_eq_nil
    {bindings : Bindings} {name : String} (notBound : bindings.contains name = false) :
    boundNames bindings [name] = [] :=
  List.filter_cons_of_neg (by rw [notBound]; nofun)

theorem boundNames_append
    (bindings : Bindings) (front back : List String) :
    boundNames bindings (front ++ back) = boundNames bindings front ++ boundNames bindings back :=
  List.filter_append ..

theorem names_of_made_pins
    {make : String → Pin} {direction : Direction}
    (made : ∀ name, (make name).name = name ∧ (make name).direction = direction)
    (names : List String) (asked : Direction) :
    ((names.map make).filter fun pin => pin.direction = asked).map Pin.name =
      if direction = asked then names else [] := by
  induction names with
  | nil => split <;> rfl
  | cons first rest inductionHypothesis =>
      obtain ⟨sameName, sameDirection⟩ := made first
      rw [List.map_cons, List.filter_cons, sameDirection]
      by_cases isAsked : direction = asked
      · rw [if_pos isAsked] at inductionHypothesis ⊢
        rw [if_pos (decide_eq_true isAsked), List.map_cons, sameName, inductionHypothesis]
      · rw [if_neg isAsked] at inductionHypothesis ⊢
        rw [if_neg (by simpa using isAsked), inductionHypothesis]

end Names

/-! ## Parts that nothing reaches, and parts with one input -/

section Shapes

variable {part : Part} {bindings : Bindings}

theorem boundNames_inputs_of_not_fed
    (notFed : part.isFed bindings = false) :
    boundNames bindings (part.pinNames .input) = [] := by
  rw [isFed, Bool.or_eq_false_iff] at notFed
  exact List.filter_eq_nil_iff.mpr (List.any_eq_false.mp notFed.2)

theorem usesBoundPins_idle
    (notFed : part.isFed bindings = false) (noCode : part.phases bindings = .idle) :
    part.UsesBoundPins bindings .idle where
  printed := noCode
  user := by
    intro text member
    exact absurd member List.not_mem_nil
  named := by
    rw [notFed]
    rfl
  drained := (boundNames_inputs_of_not_fed notFed).symm
  sent := by
    rw [notFed]
    rfl

/-- A part with one input that does nothing but forward it to its bound outputs. -/
theorem usesBoundPins_forward
    {outputs : List String} (pins : part.pins.map Pin.name = "input" :: outputs)
    (inputs_eq : part.pinNames .input = ["input"]) (outputs_eq : part.pinNames .output = outputs)
    (fed : part.isFed bindings = true) (isBound : bindings.contains "input" = true)
    (areWords : ∀ name ∈ outputs, Go.IsWord name)
    (foreign : ∀ word ∈ ["for", "v", "range"], word ∉ "input" :: outputs)
    (printed : part.phases bindings =
      ⟨"", (Block.forward "input" (boundNames bindings outputs)).text, ""⟩) :
    part.UsesBoundPins bindings
      (.ofBody (.forward "input" (boundNames bindings outputs))) where
  printed := printed
  user := by
    intro text member
    rw [PhaseBlocks.userTexts_ofBody, Block.userTexts_forward] at member
    exact absurd member List.not_mem_nil
  named := by
    rw [pins, fed, if_pos rfl, boundNames_cons isBound, PhaseBlocks.words_ofBody,
      Block.filter_words_forward (by decide)
        (fun name member => areWords name (mem_of_mem_boundNames member)) foreign
        (fun name member => List.mem_cons_of_mem "input" (mem_of_mem_boundNames member))]
    simp
  drained := by
    rw [inputs_eq, boundNames_cons isBound, PhaseBlocks.drains_ofBody]
    rfl
  sent := by
    rw [outputs_eq, fed, if_pos rfl, PhaseBlocks.sends_ofBody, Block.sends_forward]

end Shapes

/-! ## Each kind of part -/

namespace Broadcast

variable (part : Broadcast) (bindings : Bindings)

theorem pinNames_eq
    (direction : Direction) :
    (Part.broadcast part).pinNames direction =
      match direction with
      | .input => ["input"]
      | .output => part.outputNames := by
  have outputs := names_of_made_pins (fun name => ⟨rfl, rfl⟩ : ∀ name,
    (Pin.output name part.type).name = name ∧ (Pin.output name part.type).direction = .output)
    part.outputNames direction
  show ((Broadcast.pins part).filter fun pin => pin.direction = direction).map Pin.name = _
  rw [Broadcast.pins, List.filter_cons]
  cases direction with
  | input => exact congrArg ("input" :: ·) outputs
  | output => exact outputs

theorem usesPins :
    (Part.broadcast part).UsesBoundPins bindings (part.blocks bindings) := by
  have fed_eq : (Part.broadcast part).isFed bindings = bindings.contains "input" := by
    show ((Part.broadcast part).pinNames .input).any bindings.contains = _
    rw [pinNames_eq, List.any_cons, List.any_nil, Bool.or_false]
  rw [blocks]
  cases isBound : bindings.contains "input" with
  | false =>
      refine usesBoundPins_idle (fed_eq.trans isBound) ?_
      show Broadcast.phases part bindings = _
      rw [phases, isBound]
      rfl
  | true =>
      refine usesBoundPins_forward (pins_map_name part) (pinNames_eq part .input)
        (pinNames_eq part .output) (fed_eq.trans isBound) isBound
        (fun name member => isWord_of_mem_numberedNames (by decide) member) ?_ ?_
      · have apart : ∀ word ∈ ["for", "v", "range"],
            word ≠ "input" ∧ ¬ "output".toList <+: word.toList := by decide
        intro word member inPins
        rcases List.mem_cons.mp inPins with isInput | isOutput
        · exact (apart word member).1 isInput
        · exact not_mem_numberedNames (apart word member).2 isOutput
      · show Broadcast.phases part bindings = _
        rw [phases, isBound, Block.text, Block.texts_forward]
        cases boundNames bindings part.outputNames with
        | nil => rfl
        | cons first rest =>
            simp only [String.append_assoc]
            rfl

end Broadcast

theorem Sink.usesPins
    (part : Sink) (bindings : Bindings) :
    (Part.sink part).UsesBoundPins bindings (Sink.blocks bindings) := by
  have fed_eq : (Part.sink part).isFed bindings = bindings.contains "input" :=
    Bool.or_false _
  rw [blocks]
  cases isBound : bindings.contains "input" with
  | false =>
      refine usesBoundPins_idle (fed_eq.trans isBound) ?_
      show Sink.phases part bindings = _
      rw [phases, isBound]
      rfl
  | true =>
      have foreign : ∀ word ∈ ["for", "v", "range"], word ∉ "input" :: ([] : List String) := by
        decide
      refine usesBoundPins_forward rfl rfl rfl (fed_eq.trans isBound) isBound nofun foreign ?_
      show Sink.phases part bindings = _
      rw [phases, isBound]
      rfl

namespace Join

section Merge

variable (type : String) (inputs outputs : List String)

theorem drains_merge :
    (merge type inputs outputs).drains = inputs :=
  List.append_nil inputs

theorem sends_merge :
    (merge type inputs outputs).sends = outputs := by
  have unfolded : (merge type inputs outputs).sends =
      ((Block.forward "in" outputs).sends ++ []) ++ [] := rfl
  rw [unfolded, List.append_nil, List.append_nil, Block.sends_forward]

theorem userTexts_merge :
    (merge type inputs outputs).userTexts = [type, type] := by
  rw [merge, Block.userTexts_plain, Block.userTexts_forEach, Block.userTexts_plain,
    Block.userTexts_spawn, Block.userTexts_plain, Block.userTexts_forward]
  rfl

/-- The words of the code that are no pins. -/
def ownWords : List String :=
  ["var", "joinWG", "sync", "WaitGroup", "for", "_", "in", "range", "chan", "Add", "1", "go",
    "func", "defer", "Done", "v", "Wait"]

theorem filter_words_merge
    {pins : List String} (inputsAreWords : ∀ input ∈ inputs, Go.IsWord input)
    (outputsAreWords : ∀ output ∈ outputs, Go.IsWord output)
    (inputsInside : ∀ input ∈ inputs, input ∈ pins)
    (outputsInside : ∀ output ∈ outputs, output ∈ pins)
    (foreign : ∀ word ∈ ownWords, word ∉ pins) :
    (merge type inputs outputs).words.filter (· ∈ pins) = inputs ++ outputs := by
  -- Pins stand in the list of channels and where values are sent, and nowhere else.
  have others {words : List String} (own : words ⊆ ownWords) : words.filter (· ∈ pins) = [] := by
    rw [List.filter_eq_nil_iff]
    intro word member isPin
    exact foreign word (own member) (of_decide_eq_true isPin)
  have words_eq : (merge type inputs outputs).words =
      ["var", "joinWG", "sync", "WaitGroup"] ++ (["for", "_", "in", "range", "chan"] ++ inputs ++
        (["joinWG", "Add", "1"] ++ (["go", "func", "in", "chan"] ++
          (["defer", "joinWG", "Done"] ++ (Block.forward "in" outputs).words) ++ ["in"])) ++
            ["joinWG", "Wait"]) := by
    rw [merge, Block.words_plain, Block.words_forEach (by decide) inputsAreWords,
      Block.words_plain, Block.words_spawn (by decide), Block.words_plain, Block.words_plain]
    rfl
  have forwarded := Block.filter_words_forward (by decide : Go.IsWord "in") outputsAreWords
    (fun word member => foreign word ((by decide : ["for", "v", "range"] ⊆ ownWords) member))
    outputsInside
  rw [words_eq]
  simp only [List.filter_append]
  rw [forwarded,
    List.filter_eq_self.mpr fun input member => decide_eq_true (inputsInside input member),
    others (by decide : ["var", "joinWG", "sync", "WaitGroup"] ⊆ ownWords),
    others (by decide : ["for", "_", "in", "range", "chan"] ⊆ ownWords),
    others (by decide : ["joinWG", "Add", "1"] ⊆ ownWords),
    others (by decide : ["go", "func", "in", "chan"] ⊆ ownWords),
    others (by decide : ["defer", "joinWG", "Done"] ⊆ ownWords),
    others (by decide : ["in"] ⊆ ownWords), others (by decide : ["joinWG", "Wait"] ⊆ ownWords)]
  simp only [List.nil_append, List.append_nil]

theorem text_merge :
    (merge type inputs outputs).text =
      joinLines
        (["var joinWG sync.WaitGroup",
          "for _, in := range []<-chan " ++ type ++ "\x7b" ++ String.intercalate ", " inputs ++
            "\x7d \x7b",
          "\tjoinWG.Add(1)",
          "\tgo func(in <-chan " ++ type ++ ") \x7b",
          "\t\tdefer joinWG.Done()"] ++
        ((Block.forward "in" outputs).lines 2).map Line.text ++
        ["\t\x7d(in)", "\x7d", "joinWG.Wait()"]) := by
  have lines_eq : (merge type inputs outputs).lines 0 =
      [Line.own 0 "var joinWG sync.WaitGroup",
        ⟨0, [.own "for _, in := range []<-chan ", .user type,
          .own ("\x7b" ++ String.intercalate ", " inputs ++ "\x7d \x7b")]⟩,
        Line.own 1 "joinWG.Add(1)",
        ⟨1, [.own "go func(in <-chan ", .user type, .own ") \x7b"]⟩,
        Line.own 2 "defer joinWG.Done()"] ++
      (Block.forward "in" outputs).lines 2 ++
      [Line.own 1 "\x7d(in)", Line.own 0 "\x7d", Line.own 0 "joinWG.Wait()"] := by
    rw [merge]
    simp [Block.lines, Line.own]
  rw [Block.text, lines_eq, List.map_append, List.map_append]
  refine congrArg (fun front => joinLines (front ++ _ ++ _)) ?_
  simp only [List.map_cons, List.map_nil, Line.text, Line.own, Go.Piece.text, String.join,
    List.foldl_cons, List.foldl_nil, String.empty_append, String.append_assoc]
  rfl

end Merge

variable (part : Join) (bindings : Bindings)

theorem pinNames_eq
    (direction : Direction) :
    (Part.join part).pinNames direction =
      match direction with
      | .input => part.inputNames
      | .output => ["output"] := by
  have inputs := names_of_made_pins (fun name => ⟨rfl, rfl⟩ : ∀ name,
    (Pin.input name part.type).name = name ∧ (Pin.input name part.type).direction = .input)
    part.inputNames direction
  show ((Join.pins part).filter fun pin => pin.direction = direction).map Pin.name = _
  rw [Join.pins, List.filter_append, List.map_append, inputs]
  cases direction with
  | input => exact List.append_nil _
  | output => rfl

theorem forward_eq :
    forward bindings =
      ((Block.forward "in" (boundNames bindings ["output"])).lines 2).map Line.text := by
  rw [Block.texts_forward, forward]
  cases isBound : bindings.contains "output" with
  | false =>
      rw [boundNames_singleton_eq_nil isBound]
      rfl
  | true =>
      rw [boundNames_cons isBound]
      rfl

theorem foreign
    {word : String} (apart : word ≠ "output" ∧ ¬ "input".toList <+: word.toList) :
    word ∉ part.inputNames ++ ["output"] := by
  rw [List.mem_append, not_or]
  exact ⟨not_mem_numberedNames apart.2, by simpa using apart.1⟩

theorem usesPins :
    (Part.join part).UsesBoundPins bindings (part.blocks bindings) := by
  have fed_eq : (Part.join part).isFed bindings = part.inputNames.any bindings.contains := by
    show ((Part.join part).pinNames .input).any bindings.contains = _
    rw [pinNames_eq]
  rw [blocks]
  split
  · rename_i noneBound
    refine usesBoundPins_idle ?_ ?_
    · rw [fed_eq, List.any_eq_false]
      exact List.filter_eq_nil_iff.mp noneBound
    · show Join.phases part bindings = _
      rw [phases, noneBound]
  · rename_i someBound
    have fed : (Part.join part).isFed bindings = true := by
      rw [fed_eq, List.any_eq_true]
      obtain ⟨name, member⟩ := List.exists_mem_of_ne_nil _ someBound
      exact ⟨name, List.mem_filter.mp member⟩
    constructor
    · show Join.phases part bindings =
        ⟨"", (merge part.type (boundNames bindings part.inputNames)
          (boundNames bindings ["output"])).text, ""⟩
      rw [text_merge, ← forward_eq, phases]
      cases bound : boundNames bindings part.inputNames with
      | nil => exact absurd bound someBound
      | cons first rest => rfl
    · intro text member
      rw [PhaseBlocks.userTexts_ofBody, userTexts_merge] at member
      have same : text = part.type := by simpa using member
      exact List.mem_singleton.mpr same
    · have pins_eq : (Part.join part).pins.map Pin.name = part.inputNames ++ ["output"] :=
        pins_map_name part
      rw [pins_eq, fed, if_pos rfl, boundNames_append, PhaseBlocks.words_ofBody]
      refine filter_words_merge part.type _ _ ?_ ?_ ?_ ?_ ?_
      · intro name member
        exact isWord_of_mem_numberedNames (by decide) (mem_of_mem_boundNames member)
      · intro name member
        rw [List.mem_singleton.mp (mem_of_mem_boundNames member)]
        decide
      · intro name member
        exact List.mem_append_left _ (mem_of_mem_boundNames member)
      · intro name member
        exact List.mem_append_right _ (mem_of_mem_boundNames member)
      · have apart : ∀ word ∈ ownWords, word ≠ "output" ∧ ¬ "input".toList <+: word.toList := by
          decide
        intro word member
        exact foreign part (apart word member)
    · rw [pinNames_eq, PhaseBlocks.drains_ofBody, drains_merge]
    · rw [pinNames_eq, fed, if_pos rfl, PhaseBlocks.sends_ofBody, sends_merge]

end Join

namespace Filter

variable (part : Filter) (bindings : Bindings)

theorem branch_eq
    (name : String) :
    branch bindings name =
      ((Block.sendEach "v" (boundNames bindings [name])).lines 2).map Line.text := by
  rw [Block.texts_sendEach, branch]
  cases isBound : bindings.contains name with
  | false =>
      rw [boundNames_singleton_eq_nil isBound]
      rfl
  | true =>
      rw [boundNames_cons isBound]
      show ["\t\t" ++ name ++ " <- v"] = ["\t\t" ++ (name ++ " <- " ++ "v")]
      rw [String.append_assoc, String.append_assoc]
      rfl

theorem text_keep :
    part.keep.text =
      joinLines ["keep := func(v " ++ part.type ++ ") bool \x7b",
        "\treturn " ++ part.predicate, "\x7d"] := by
  refine congrArg joinLines ?_
  rw [keep]
  simp only [Block.lines, List.cons_append, List.nil_append, List.map_cons, List.map_nil,
    Line.text, Go.Piece.text, String.join, List.foldl_cons, List.foldl_nil, String.empty_append]
  rfl

theorem text_route :
    (route (boundNames bindings ["match"]) (boundNames bindings ["nomatch"])).text =
      joinLines (["for v := range input \x7b", "\tif keep(v) \x7b"] ++ branch bindings "match" ++
        ["\t\x7d else \x7b"] ++ branch bindings "nomatch" ++ ["\t\x7d", "\x7d"]) := by
  have lines_eq (matching others : List String) : (route matching others).lines 0 =
      [Line.own 0 "for v := range input \x7b", Line.own 1 "if keep(v) \x7b"] ++
      (Block.sendEach "v" matching).lines 2 ++ [Line.own 1 "\x7d else \x7b"] ++
      (Block.sendEach "v" others).lines 2 ++ [Line.own 1 "\x7d", Line.own 0 "\x7d"] := by
    rw [route]
    simp only [Block.lines, List.cons_append, List.nil_append, List.append_assoc]
    rfl
  rw [branch_eq, branch_eq, Block.text, lines_eq]
  simp only [List.map_append]
  rfl

theorem sends_route
    (matching others : List String) :
    (route matching others).sends = matching ++ others := by
  have unfolded : (route matching others).sends =
      ((Block.sendEach "v" matching).sends ++ (Block.sendEach "v" others).sends ++ []) ++ [] := rfl
  rw [unfolded, Block.sends_sendEach, Block.sends_sendEach, List.append_nil, List.append_nil]

theorem userTexts_route
    (matching others : List String) :
    (route matching others).userTexts = [] := by
  rw [route, Block.userTexts_drain, Block.userTexts_choice, Block.userTexts_sendEach,
    Block.userTexts_sendEach]
  rfl

theorem filter_words_route :
    (route (boundNames bindings ["match"]) (boundNames bindings ["nomatch"])).words.filter
        (· ∈ ["input", "match", "nomatch"]) =
      "input" :: boundNames bindings ["match"] ++ boundNames bindings ["nomatch"] := by
  have sent (name : String) (isWord : Go.IsWord name)
      (isPin : name ∈ ["input", "match", "nomatch"]) :
      (Block.sendEach "v" (boundNames bindings [name])).words.filter
          (· ∈ ["input", "match", "nomatch"]) =
        boundNames bindings [name] := by
    refine Block.filter_words_sendEach (by decide) ?_ (by decide) ?_
    · intro channel member
      rw [List.mem_singleton.mp (mem_of_mem_boundNames member)]
      exact isWord
    · intro channel member
      rw [List.mem_singleton.mp (mem_of_mem_boundNames member)]
      exact isPin
  have loop : (Block.loopWords (some "v") "input").filter (· ∈ ["input", "match", "nomatch"]) =
      ["input"] := by decide
  have condition : (Go.words ("if " ++ "keep(v)" ++ " \x7b").toList).filter
      (· ∈ ["input", "match", "nomatch"]) = [] := by decide
  rw [route, Block.words_drain (fun _ isValue => Option.some.inj isValue ▸ by decide) (by decide),
    Block.words_choice, List.filter_append, List.filter_append, List.filter_append,
    List.filter_append, List.filter_append, List.filter_cons_of_neg (by decide), loop, condition,
    sent "match" (by decide) (by decide), sent "nomatch" (by decide) (by decide)]
  simp only [Block.words_done, List.filter_nil, List.nil_append, List.append_nil]
  rfl

theorem usesPins :
    (Part.filter part).UsesBoundPins bindings (part.blocks bindings) := by
  have fed_eq : (Part.filter part).isFed bindings = bindings.contains "input" :=
    Bool.or_false _
  rw [blocks]
  cases isBound : bindings.contains "input" with
  | false =>
      refine usesBoundPins_idle (fed_eq.trans isBound) ?_
      show Filter.phases part bindings = _
      rw [phases, isBound]
      rfl
  | true =>
      have fed := fed_eq.trans isBound
      have outputs_eq : boundNames bindings ["match", "nomatch"] =
          boundNames bindings ["match"] ++ boundNames bindings ["nomatch"] :=
        boundNames_append bindings ["match"] ["nomatch"]
      constructor
      · show Filter.phases part bindings = ⟨part.keep.text,
          (route (boundNames bindings ["match"]) (boundNames bindings ["nomatch"])).text, ""⟩
        rw [phases, isBound, text_keep, text_route]
        rfl
      · intro text member
        have inKeep : text ∈ part.keep.userTexts ++
            (route (boundNames bindings ["match"]) (boundNames bindings ["nomatch"])).userTexts ++
              [] := member
        rw [userTexts_route, List.append_nil, List.append_nil] at inKeep
        exact inKeep
      · rw [fed, if_pos rfl]
        show (part.keep.words ++ (route (boundNames bindings ["match"])
          (boundNames bindings ["nomatch"])).words ++ []).filter (· ∈ ["input", "match", "nomatch"]) =
            boundNames bindings ["input", "match", "nomatch"]
        rw [List.append_nil, List.filter_append, filter_words_route, boundNames_cons isBound,
          outputs_eq]
        rfl
      · exact (boundNames_cons isBound []).symm
      · rw [fed, if_pos rfl]
        exact ((List.append_nil _).trans (sends_route _ _)).trans outputs_eq.symm

end Filter

namespace HttpServer

variable (part : HttpServer) (bindings : Bindings)

theorem handler_eq :
    handler bindings = ((handlerBlock bindings).lines 2).map Line.text := by
  rw [handler, handlerBlock]
  split <;> rfl

theorem text_serve
    (address : String) :
    (serve address).text =
      joinLines ["if instanceNumber == 0 \x7b",
        "\tif err := srv.ListenAndServe(); err != nil && err != http.ErrServerClosed \x7b",
        "\t\tlog.Printf(\"HTTPServer %s: %v\", " ++ address ++ ", err)",
        "\t\x7d",
        "\x7d"] := by
  refine congrArg joinLines ?_
  rfl

theorem userTexts_serve
    (address : String) :
    (serve address).userTexts = [address] := by
  rw [serve, Block.userTexts_nest, Block.userTexts_nest, Block.userTexts_plain]
  rfl

theorem sends_setUp
    (address : String) :
    (setUp address bindings).sends = boundNames bindings ["requests"] := by
  have unfolded : (setUp address bindings).sends = ((handlerBlock bindings).sends ++ []) ++ [] := rfl
  rw [unfolded, List.append_nil, List.append_nil, handlerBlock]
  split
  · rename_i isBound
    exact (boundNames_cons isBound []).symm
  · rename_i notBound
    rw [boundNames_singleton_eq_nil (Bool.eq_false_iff.mpr notBound)]
    rfl

theorem text_setUp
    (address : String) :
    (setUp address bindings).text =
      joinLines (["srv := &http.Server\x7b", "\tAddr: " ++ address ++ ",",
        "\tHandler: http.HandlerFunc(func(w http.ResponseWriter, r *http.Request) \x7b"] ++
        ((handlerBlock bindings).lines 2).map Line.text ++ ["\t\x7d),", "\x7d"]) := by
  have lines_eq : (setUp address bindings).lines 0 =
      [Line.own 0 "srv := &http.Server\x7b", ⟨1, [.own "Addr: ", .user address, .own ","]⟩,
        Line.own 1
          "Handler: http.HandlerFunc(func(w http.ResponseWriter, r *http.Request) \x7b"] ++
      (handlerBlock bindings).lines 2 ++ [Line.own 1 "\x7d),", Line.own 0 "\x7d"] := by
    rw [setUp]
    simp only [Block.lines, List.cons_append, List.nil_append, List.append_assoc]
    rfl
  rw [Block.text, lines_eq]
  simp only [List.map_append]
  rfl

theorem userTexts_setUp
    (address : String) :
    (setUp address bindings).userTexts = [address] := by
  have noText : (handlerBlock bindings).userTexts = [] := by
    rw [handlerBlock]
    split <;> rfl
  rw [setUp, Block.userTexts_nest, Block.userTexts_plain, Block.userTexts_nest, noText]
  rfl

theorem filter_words_handlerBlock :
    (handlerBlock bindings).words.filter (· ∈ ["requests"]) =
      boundNames bindings ["requests"] := by
  rw [handlerBlock]
  split
  · rename_i isBound
    have made : Line.words ⟨0, [.own
        "req := &HTTPRequest\x7bResponseWriter: w, Request: r, done: make(chan struct\x7b\x7d)\x7d"]⟩ =
        ["req", "HTTPRequest", "ResponseWriter", "w", "Request", "r", "done", "make", "chan",
          "struct"] := by
      decide +kernel
    have waited : Line.words ⟨0, [.own "<-req.done"]⟩ = ["req", "done"] := by decide
    rw [boundNames_cons isBound, Block.words_plain, Block.words_send (by decide) (by decide),
      Block.words_plain, made, waited]
    rfl
  · rename_i notBound
    have refused : Line.words ⟨0, [.own
        "http.Error(w, \"no handler connected\", http.StatusServiceUnavailable)"]⟩ =
        ["http", "Error", "w", "no", "handler", "connected", "http", "StatusServiceUnavailable"] := by
      decide +kernel
    rw [boundNames_singleton_eq_nil (Bool.eq_false_iff.mpr notBound), Block.words_plain, refused]
    rfl

theorem words_setUp
    (address : String) :
    (setUp address bindings).words =
      ["srv", "http", "Server", "Addr", "Handler", "http", "HandlerFunc", "func", "w", "http",
        "ResponseWriter", "r", "http", "Request"] ++ (handlerBlock bindings).words := by
  have opened : Line.words ⟨0, [.own "srv := &http.Server\x7b"]⟩ = ["srv", "http", "Server"] := by
    decide +kernel
  have listens : Line.words ⟨0, [.own "Addr: ", .user address, .own ","]⟩ = ["Addr"] := rfl
  have handles : Line.words ⟨0, [.own
      "Handler: http.HandlerFunc(func(w http.ResponseWriter, r *http.Request) \x7b"]⟩ =
      ["Handler", "http", "HandlerFunc", "func", "w", "http", "ResponseWriter", "r", "http",
        "Request"] := by
    decide +kernel
  have closed : Line.words ⟨0, [.own "\x7d),"]⟩ = [] ∧ Line.words ⟨0, [.own "\x7d"]⟩ = [] := by
    decide
  rw [setUp, Block.words_nest, Block.words_plain, Block.words_nest, Block.words_done, opened,
    listens, handles, closed.1, closed.2]
  simp only [List.append_nil, List.cons_append, List.nil_append]

theorem words_serve
    (address : String) :
    (serve address).words =
      ["if", "instanceNumber", "0", "if", "err", "srv", "ListenAndServe", "err", "nil", "err",
        "http", "ErrServerClosed", "log", "Printf", "HTTPServer", "s", "v", "err"] := by
  have first : Line.words ⟨0, [.own "if instanceNumber == 0 \x7b"]⟩ =
      ["if", "instanceNumber", "0"] := by
    decide +kernel
  have serves : Line.words ⟨0, [.own
      "if err := srv.ListenAndServe(); err != nil && err != http.ErrServerClosed \x7b"]⟩ =
      ["if", "err", "srv", "ListenAndServe", "err", "nil", "err", "http", "ErrServerClosed"] := by
    decide +kernel
  have logs : Line.words ⟨0, [.own "log.Printf(\"HTTPServer %s: %v\", ", .user address,
      .own ", err)"]⟩ = ["log", "Printf", "HTTPServer", "s", "v", "err"] := rfl
  have closed : Line.words ⟨0, [.own "\x7d"]⟩ = [] := by decide
  rw [serve, Block.words_nest, Block.words_nest, Block.words_plain, Block.words_done, first, serves,
    logs, closed]
  rfl

/-- Beside the handler no code of a server names the pin. -/
theorem filter_words_blocks :
    (part.blocks bindings).words.filter (· ∈ ["requests"]) = boundNames bindings ["requests"] := by
  rw [blocks, PhaseBlocks.words, words_serve, words_setUp, List.filter_append, List.filter_append,
    List.filter_append, filter_words_handlerBlock]
  exact (List.append_nil _).trans (List.append_nil _)

theorem usesPins :
    (Part.httpServer part).UsesBoundPins bindings (part.blocks bindings) := by
  constructor
  · show HttpServer.phases part bindings = _
    rw [blocks, PhaseBlocks.phases, text_setUp, text_serve, phases, handler_eq]
    rfl
  · intro text member
    have unfolded : text ∈ (setUp (Go.literal part.address) bindings).userTexts ++
        (serve (Go.literal part.address)).userTexts ++ [] := member
    rw [userTexts_setUp, userTexts_serve] at unfolded
    have same : text = Go.literal part.address := by simpa using unfolded
    exact List.mem_singleton.mpr same
  · show (part.blocks bindings).words.filter (· ∈ ["requests"]) = boundNames bindings ["requests"]
    exact filter_words_blocks part bindings
  · rfl
  · exact (List.append_nil _).trans
      ((List.append_nil _).trans (sends_setUp bindings (Go.literal part.address)))

end HttpServer

/-- The code of a part uses its bound pins and no other: it names each of them once, and in their
order, if values can reach the part; it receives from every bound input until it is closed; and it
sends to every bound output if values can reach the part. What users write in the configuration is
set apart, and a part whose code is a user's own is left out. -/
theorem usesBoundPins
    {part : Part} (notCode : part.kind ≠ .code) (bindings : Bindings) :
    part.UsesBoundPins bindings (part.blocks bindings) := by
  cases part with
  | broadcast part => exact part.usesPins bindings
  | code part => exact absurd rfl notCode
  | filter part => exact part.usesPins bindings
  | httpServer part => exact part.usesPins bindings
  | join part => exact part.usesPins bindings
  | sink part => exact part.usesPins bindings

/-- Of twelve outputs two are bound, and the name of one begins the name of the other. -/
theorem usesBoundPins_broadcast_twelve :
    let part := Part.broadcast ⟨"int", 12⟩
    let bindings := KeySet.ofList ["output10", "output1", "input"]
    part.kind ≠ .code ∧
      part.phases bindings =
        ⟨"", "for v := range input \x7b\n\toutput1 <- v\n\toutput10 <- v\n\x7d", ""⟩ ∧
      part.UsesBoundPins bindings (part.blocks bindings) ∧
      (part.blocks bindings).sends = ["output1", "output10"] :=
  ⟨by decide, by decide +kernel, usesBoundPins (by decide) _, by decide +kernel⟩

end Part

end Pipework
