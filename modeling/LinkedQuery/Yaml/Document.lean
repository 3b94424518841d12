import LinkedQuery.Yaml.Basic
import LinkedQuery.Yaml.Token

/-!
# YAML documents

`Document.ofText` reads the first document of a text, and says what comes behind it.  The functions
before it read values from the front of a list of tokens.  A `Reading` is such a value with the
tokens left, which are fewer, so that everything ends; none are left where the text breaks off.
-/

namespace LinkedQuery.Yaml

/-- What has been read from the front of some tokens, and the tokens left, unless the text has
broken off. -/
structure Reading (α : Type) (bound : Nat) where
  result : α
  rest? : Option { rest : List Token // rest.length ≤ bound }

namespace Reading

variable {α β : Type} {bound : Nat}

/-- A result, and the tokens left behind it. -/
def done (result : α) (rest : List Token) (h : rest.length ≤ bound := by simp) :
    Reading α bound :=
  ⟨result, some ⟨rest, h⟩⟩

/-- A result behind which the text breaks off. -/
def cut (result : α) : Reading α bound :=
  ⟨result, none⟩

/-- The reading with a change of its result. -/
def map (f : α → β) (reading : Reading α bound) : Reading β bound :=
  ⟨f reading.result, reading.rest?⟩

/-- The reading as one from the front of more tokens. -/
def mono {more : Nat} (reading : Reading α bound) (h : bound ≤ more := by simp) :
    Reading α more :=
  ⟨reading.result, reading.rest?.map fun rest => ⟨rest.1, Nat.le_trans rest.2 h⟩⟩

/-- Reads on behind a result; `broken` is what the result comes to where the text breaks off. -/
def andThen (reading : Reading α bound) (broken : α → β)
    (onward : α → (rest : List Token) → rest.length ≤ bound → Reading β rest.length) :
    Reading β bound :=
  match reading with
  | ⟨result, none⟩ => cut (broken result)
  | ⟨result, some rest⟩ => (onward result rest.1 rest.2).mono rest.2

end Reading

/-- Where a value stands. -/
inductive Position where
  | flow
  | block
  /-- In a block mapping, where the items of a sequence need not be indented. -/
  | entry
deriving DecidableEq, Repr

/-- The activity of reading a value. -/
def Position.activity : Position → Activity
  | .flow => .flowNode
  | _ => .blockNode

/-- The fault at a token: the one that the token is, or else one of its place. -/
def Token.fault (token : Token) (problem : Problem) (activity : Activity) (start : Mark) : Yaml :=
  match token.kind with
  | .fault fault => .broken fault
  | _ => .broken (.misread problem token.start (some (activity, start)))

/-- A value whose tokens do not end. -/
def endless : Yaml :=
  .broken (.misread .unexpectedEnd .zero none)

/-- An entry without a value, as the text breaks off in its key. -/
def brokenEntry (key : Yaml) : Yaml × Yaml :=
  (key, key)

/-- The value of a key that has none. -/
def noValue (tokens : List Token) : Reading Yaml tokens.length :=
  match tokens with
  | [] => .cut endless
  | token :: rest =>
    match token.kind with
    | .fault fault => .cut (.broken fault)
    | _ => .done (absent token.start) (token :: rest)

mutual

/-- The value that begins with a token. -/
def node (position : Position) (token : Token) (rest : List Token) : Reading Yaml rest.length :=
  let fault : Reading Yaml rest.length :=
    .cut (token.fault .noNodeContent position.activity token.start)
  match token.kind with
  | .scalar plain text => .done (.scalar plain text token.start) rest
  | .flowSequence => (flowItem token.start rest).map (.sequence · token.start)
  | .flowMapping => (flowEntry token.start rest).map (.mapping · token.start)
  | .blockSequence =>
    if position = .flow then fault
    else (blockItems token.start rest).map (.sequence · token.start)
  | .blockMapping =>
    if position = .flow then fault
    else (blockEntries token.start rest).map (.mapping · token.start)
  | .item =>
    if position = .entry then (entryItems token.stop rest).map (.sequence · token.start)
    else fault
  | _ => fault
termination_by 4 * rest.length + 4

/-- The value in front, unless a token of some kinds comes first.  A value that is not there
stands at a place told, or else where that token begins. -/
def nodeUnless (stops : List Token.Kind) (position : Position) (place : Option Mark)
    (tokens : List Token) : Reading Yaml tokens.length :=
  match tokens with
  | [] => .cut endless
  | token :: rest =>
    if token.kind ∈ stops then .done (absent (place.getD token.start)) (token :: rest)
    else (node position token rest).mono
termination_by 4 * tokens.length + 1

/-- The items of a block sequence up to its end. -/
def blockItems (start : Mark) (tokens : List Token) : Reading (List Yaml) tokens.length :=
  match tokens with
  | [] => .cut [endless]
  | token :: rest =>
    match token.kind with
    | .blockEnd => .done [] rest
    | .item =>
      ((nodeUnless [.item, .blockEnd] .block token.stop rest).andThen ([·])
        fun item rest _ => (blockItems start rest).map (item :: ·)).mono
    | _ => .cut [token.fault .noItem .blockSequence start]
termination_by 4 * tokens.length + 2

/-- The items of a sequence in a block mapping, behind the mark of the first one. -/
def entryItems (mark : Mark) (tokens : List Token) : Reading (List Yaml) tokens.length :=
  (nodeUnless [.item, .key, .value, .blockEnd] .block mark tokens).andThen ([·])
    fun item rest _ =>
      match rest with
      | [] => .cut [item, endless]
      | token :: behind =>
        match token.kind with
        | .item => ((entryItems token.stop behind).map (item :: ·)).mono
        | .fault fault => .cut [item, .broken fault]
        | _ => .done [item] (token :: behind)
termination_by 4 * tokens.length + 2

/-- The entries of a block mapping up to its end. -/
def blockEntries (start : Mark) (tokens : List Token) :
    Reading (List (Yaml × Yaml)) tokens.length :=
  match tokens with
  | [] => .cut [brokenEntry endless]
  | token :: rest =>
    match token.kind with
    | .blockEnd => .done [] rest
    | .key =>
      ((nodeUnless [.key, .value, .blockEnd] .entry token.stop rest).andThen ([brokenEntry ·])
        fun key rest _ => (blockValue rest).andThen (fun value => [(key, value)])
          fun value rest _ => (blockEntries start rest).map ((key, value) :: ·)).mono
    | _ => .cut [brokenEntry (token.fault .noKey .blockMapping start)]
termination_by 4 * tokens.length + 2

/-- The value behind a key of a block mapping. -/
def blockValue (tokens : List Token) : Reading Yaml tokens.length :=
  match tokens with
  | [] => .cut endless
  | token :: rest =>
    match token.kind with
    | .value => (nodeUnless [.key, .value, .blockEnd] .entry token.stop rest).mono
    | .fault fault => .cut (.broken fault)
    | _ => .done (absent token.start) (token :: rest)
termination_by 4 * tokens.length + 2

/-- The items of a flow sequence up to its end; an item may come at once. -/
def flowItem (start : Mark) (tokens : List Token) : Reading (List Yaml) tokens.length :=
  match tokens with
  | [] => .cut [endless]
  | token :: rest =>
    match token.kind with
    | .flowSequenceEnd => .done [] rest
    | .key =>
      ((pair token.start rest).andThen ([·])
        fun item rest _ => (flowItems start rest).map (item :: ·)).mono
    | _ =>
      ((node .flow token rest).andThen ([·])
        fun item rest _ => (flowItems start rest).map (item :: ·)).mono
termination_by 4 * tokens.length + 2

/-- The further items of a flow sequence, behind one of them. -/
def flowItems (start : Mark) (tokens : List Token) : Reading (List Yaml) tokens.length :=
  match tokens with
  | [] => .cut [endless]
  | token :: rest =>
    match token.kind with
    | .flowSequenceEnd => .done [] rest
    | .comma => (flowItem start rest).mono
    | _ => .cut [token.fault .noSequenceEnd .flowSequence start]
termination_by 4 * tokens.length + 3

/-- An item of a flow sequence that is a mapping of one entry, behind the mark of its key. -/
def pair (start : Mark) (tokens : List Token) : Reading Yaml tokens.length :=
  let key : Reading Yaml tokens.length :=
    match tokens with
    | [] => .cut endless
    | token :: rest =>
      if token.kind ∈ [.value, .comma, .flowSequenceEnd] then .done (absent token.stop) rest
      else (node .flow token rest).mono
  key.andThen (fun key => .mapping [brokenEntry key] start) fun key rest _ =>
    (flowValue [.comma, .flowSequenceEnd] rest).andThen (fun value => .mapping [(key, value)] start)
      fun value rest _ =>
        match rest with
        | [] => .cut endless
        | token :: behind =>
          match token.kind with
          | .fault fault => .cut (.mapping [(key, value), brokenEntry (.broken fault)] start)
          | _ => .done (.mapping [(key, value)] start) (token :: behind)
termination_by 4 * tokens.length + 3

/-- The entries of a flow mapping up to its end; an entry may come at once. -/
def flowEntry (start : Mark) (tokens : List Token) :
    Reading (List (Yaml × Yaml)) tokens.length :=
  match tokens with
  | [] => .cut [brokenEntry endless]
  | token :: rest =>
    match token.kind with
    | .flowMappingEnd => .done [] rest
    | .key =>
      ((nodeUnless [.value, .comma, .flowMappingEnd] .flow none rest).andThen ([brokenEntry ·])
        fun key rest _ =>
          (flowValue [.comma, .flowMappingEnd] rest).andThen (fun value => [(key, value)])
            fun value rest _ => (flowEntries start rest).map ((key, value) :: ·)).mono
    | _ =>
      ((node .flow token rest).andThen ([brokenEntry ·])
        fun key rest _ => (noValue rest).andThen (fun value => [(key, value)])
          fun value rest _ => (flowEntries start rest).map ((key, value) :: ·)).mono
termination_by 4 * tokens.length + 2

/-- The further entries of a flow mapping, behind one of them. -/
def flowEntries (start : Mark) (tokens : List Token) :
    Reading (List (Yaml × Yaml)) tokens.length :=
  match tokens with
  | [] => .cut [brokenEntry endless]
  | token :: rest =>
    match token.kind with
    | .flowMappingEnd => .done [] rest
    | .comma => (flowEntry start rest).mono
    | _ => .cut [brokenEntry (token.fault .noMappingEnd .flowMapping start)]
termination_by 4 * tokens.length + 3

/-- The value behind a key of a flow collection. -/
def flowValue (stops : List Token.Kind) (tokens : List Token) : Reading Yaml tokens.length :=
  match tokens with
  | [] => .cut endless
  | token :: rest =>
    match token.kind with
    | .value => (nodeUnless stops .flow none rest).mono
    | _ => noValue (token :: rest)
termination_by 4 * tokens.length + 2

end

/-- What comes behind a document. -/
inductive Ending where
  | nothing
  | broken (fault : Fault)
  /-- Another document, or what is none. -/
  | further
deriving DecidableEq, Repr

/-- What comes behind a document, from the token behind its value on. -/
def Ending.ofTokens : List Token → Ending
  | [] => .further
  | token :: rest =>
    match token.kind with
    | .fault fault => .broken fault
    | _ =>
      match ((token :: rest).dropWhile (·.kind = .documentEnd)).head?.map Token.kind with
      | some .textEnd => .nothing
      | _ => .further

/-- The first document of a text. -/
structure Document where
  root : Yaml
  ending : Ending

/-- The first document of some tokens.  Without one there is an absent value. -/
def Document.ofTokens (tokens : List Token) : Document :=
  let reading : Reading Yaml tokens.length :=
    match tokens with
    | [] => .cut endless
    | token :: rest =>
      match token.kind with
      | .documentStart =>
        (nodeUnless [.documentStart, .documentEnd, .textEnd] .block none rest).mono
      | .textEnd => .done (absent token.start) (token :: rest)
      | _ => (node .block token rest).mono
  ⟨reading.result, reading.rest?.elim .further fun rest => .ofTokens rest.1⟩

/-- The first document of a text. -/
def Document.ofText (text : String) : Document :=
  .ofTokens (Token.ofText text)

end LinkedQuery.Yaml
