import LoginSession.Shell.Source

namespace LoginSession.Shell

open Host (Octets)
open Reading

/-- Where a part of a word stands, which decides what ends it and what quotes in it. -/
inductive Context where
  | bare
  | double (inBrace : Bool)
  | brace (quoted : Bool)
  | arithmetic (depth : Nat)
  | document
  deriving DecidableEq

namespace Context

def isQuoted : Context → Bool
  | .bare | .brace false => false
  | _ => true

def isInBrace : Context → Bool
  | .double inBrace => inBrace
  | .brace _ => true
  | _ => false

def isPlain (context : Context) (c : Char) : Bool :=
  let isActive := c = '\\' || c = '"' || c = '$' || c = '\x60' || c = '\x7d' || c = '\n'
  match context with
  | .bare => !isActive && c ≠ '\'' && !isMeta c
  | .brace false => !isActive && c ≠ '\''
  | .arithmetic _ => !isActive && c ≠ '(' && c ≠ ')'
  | _ => !isActive

def inner (context : Context) : Context := .brace context.isQuoted

end Context

abbrev Draft := List Part

namespace Draft

def add (s : Octets) : Draft → Draft
  | .text t :: rest => .text (s.reverseAux t) :: rest
  | rest => .text s.reverse :: rest

def turn : Part → Part
  | .text s => .text s.reverse
  | part => part

def append (parts : List Part) (draft : Draft) : Draft := (parts.map turn).reverse ++ draft

def push (part : Part) (draft : Draft) : Draft := append [part] draft

def finish (draft : Draft) : List Part := (draft.map turn).reverse

end Draft

def assignment? : Word → Option (Octets × Word)
  | .text s :: rest =>
    let name := s.takeWhile (· ≠ '=')
    match s.dropWhile (· ≠ '=') with
    | _ :: value =>
      if isName name then some (name, if value.isEmpty then rest else .text value :: rest)
      else none
    | [] => none
  | _ => none

def literal? : Word → Option Octets
  | [.text s] => some s
  | _ => none

def name? (word : Word) : Option Octets := (literal? word).filter isName

def isQuotation : Part → Bool
  | .escaped _ | .single _ | .double _ => true
  | _ => false

def plainText : Word → Octets
  | [] => []
  | .text s :: rest | .single s :: rest => s ++ plainText rest
  | .escaped c :: rest => c :: plainText rest
  | .double parts :: rest => plainText parts ++ plainText rest
  | _ :: rest => plainText rest

def Command.detach : Command → Command
  | .pipeline _ stages => .pipeline true stages
  | .redirected line body redirects => .background line body redirects
  | body => .background 0 body []

def Command.followedBy (first : Option Command) (second : Command) : Command :=
  match first with
  | none => second
  | some first => .sequence first second

def ofWord : Checks := { reserved := true, aliases := true }

def ofLine : Checks := { newlines := true, reserved := true, aliases := true }

def readSingle : Nat → Octets → Reading Octets
  | 0, _ => fail "Command too deep"
  | fuel + 1, taken => do
    let run ← takeRun fun c => c ≠ '\'' && c ≠ '\n'
    let taken := run.reverseAux taken
    match ← peekRaw with
    | some '\'' =>
      skip
      return taken.reverse
    | some _ =>
      skip
      nextLine
      let _ ← meetsDelimiter
      readSingle fuel ('\n' :: taken)
    | none => fail (if (← get).isDocument then "Missing '\x7d'" else "Unterminated quoted string")

/-- The text between backquotes, in which a backslash hides a few characters from the first reading.
-/
def readBackquoted (quoted : Bool) : Nat → Octets → Reading Octets
  | 0, _ => fail "Command too deep"
  | fuel + 1, taken => do
    match ← peek with
    | none => fail "EOF in backquote substitution"
    | some '\x60' =>
      skip
      return taken.reverse
    | some '\\' =>
      skip
      match ← peekRaw with
      | none => fail "EOF in backquote substitution"
      | some c =>
        skip
        if c = '$' ∨ c = '\x60' ∨ c = '\\' ∨ (quoted ∧ c = '"') then
          readBackquoted quoted fuel (c :: taken)
        else readBackquoted quoted fuel (c :: '\\' :: taken)
    | some c =>
      skip
      if c = '\n' then nextLine
      readBackquoted quoted fuel (c :: taken)

def readLiteralLines : Nat → Octets → Reading Octets
  | 0, _ => fail "Command too deep"
  | fuel + 1, taken => do
    if ← meetsDelimiter then return taken.reverse
    else
      let run ← takeRun (· ≠ '\n')
      let taken := run.reverseAux taken
      match ← peekRaw with
      | none => return taken.reverse
      | some _ =>
        skip
        nextLine
        readLiteralLines fuel ('\n' :: taken)

def skipBlanks : Nat → Reading Unit
  | 0 => return
  | fuel + 1 => do
    match ← peek with
    | some '#' =>
      let _ ← takeRun (· ≠ '\n')
      let _ ← peekRaw
      skipBlanks fuel
    | some c =>
      if c = ' ' ∨ c = '\t' then
        skip
        skipBlanks fuel
      else return
    | none => return

def readOperator (c : Char) : Reading Token := do
  skip
  let double : Reading Token := do
    if ← takeIf c then setToken (.operator (String.ofList [c, c]))
    else setToken (.operator (String.singleton c))
  if c = '&' ∨ c = '|' ∨ c = ';' then double else setToken (.operator (String.singleton c))

def readRedirectHead (digit : Option Char) : Reading RedirectHead := do
  let head (default : Nat) (kind : RedirectKind) (stripTabs : Bool) : RedirectHead :=
    ⟨(digit.map fun c => c.toNat - '0'.toNat).getD default, kind, stripTabs⟩
  if ← takeIf '>' then
    if ← takeIf '>' then return head 1 .append false
    else if ← takeIf '|' then return head 1 .replace false
    else if ← takeIf '&' then return head 1 .duplicate false
    else return head 1 .output false
  else
    skip
    if ← takeIf '<' then return head 0 .document (← takeIf '-')
    else if ← takeIf '&' then return head 0 .duplicate false
    else if ← takeIf '>' then return head 0 .inputOutput false
    else return head 0 .input false

def redirectDigit? : Word → Option (Option Char)
  | [] => some none
  | [.text [c]] => if c.isDigit then some (some c) else none
  | _ => none

mutual

def readParts : Nat → Context → Draft → Reading (List Part)
  | 0, _, _ => fail "Command too deep"
  | fuel + 1, context, draft => do
    let run ← takeRun context.isPlain
    let draft := if run.isEmpty then draft else draft.add run
    let asText (c : Char) : Reading (List Part) := do
      skip
      readParts fuel context (draft.add [c])
    match ← peek with
    | none =>
      match context with
      | .bare | .document => return draft.finish
      | .arithmetic _ => fail "Missing '))'"
      | .brace false => fail "Missing '\x7d'"
      | _ =>
        fail (if (← get).isDocument then "Missing '\x7d'" else "Unterminated quoted string")
    | some '\n' =>
      if context = .bare then return draft.finish
      else
        skip
        nextLine
        let _ ← meetsDelimiter
        readParts fuel context (draft.add ['\n'])
    | some '\\' =>
      skip
      match ← peekRaw with
      | none => readParts fuel context (draft.push (.escaped '\\'))
      | some c =>
        skip
        let escapes := !context.isQuoted || c = '\\' || c = '\x60' || c = '$' ||
          (c = '"' && (!(← get).isDocument || context.isInBrace)) ||
          (c = '\x7d' && context.isInBrace)
        let draft := if escapes then draft else draft.add ['\\']
        readParts fuel context (draft.push (.escaped c))
    | some '\'' =>
      if context.isQuoted then asText '\''
      else
        skip
        let body ← readSingle fuel []
        readParts fuel context (draft.push (.single body))
    | some '"' =>
      match context with
      | .double _ =>
        skip
        return draft.finish
      | .document | .arithmetic _ => asText '"'
      | _ =>
        skip
        let parts ← readParts fuel (.double context.isInBrace) []
        readParts fuel context (draft.push (.double parts))
    | some '$' =>
      if (← get).isLiteral then asText '$'
      else
        skip
        let parts ← readDollar fuel context
        readParts fuel context (draft.append parts)
    | some '\x60' =>
      if (← get).isLiteral then asText '\x60'
      else
        skip
        let script ← readBackquoted context.isQuoted fuel []
        let body ← readQuotedScript fuel script
        readParts fuel context (draft.push (.command body))
    | some c =>
      match c, context with
      | '\x7d', .brace _ =>
        skip
        return draft.finish
      | '(', .arithmetic depth =>
        skip
        readParts fuel (.arithmetic (depth + 1)) (draft.add ['('])
      | ')', .arithmetic (depth + 1) =>
        skip
        readParts fuel (.arithmetic depth) (draft.add [')'])
      | ')', .arithmetic 0 =>
        skip
        if ← takeIf ')' then return draft.finish
        else readParts fuel context (draft.add [')'])
      | c, .bare => if isMeta c then return draft.finish else asText c
      | c, _ => asText c

def readDollar : Nat → Context → Reading (List Part)
  | 0, _ => fail "Command too deep"
  | fuel + 1, context => do
    match ← peek with
    | none => return [.text ['$']]
    | some '(' =>
      skip
      if ← takeIf '(' then return [.arithmetic (← readParts fuel (.arithmetic 0) [])]
      else return [.command (← readSubstitution fuel)]
    | some '\x7b' =>
      skip
      readBraced fuel context.inner
    | some c =>
      if isNameStart c then
        return [.parameter (← Reading.takeWhile isNameChar fuel []) .plain]
      else if isSpecialParameter c then
        skip
        return [.parameter [c] .plain]
      else return [.text ['$']]

/-- A script that has been taken from between backquotes. What follows its first list of commands is
not looked at. -/
def readQuotedScript : Nat → Octets → Reading Command
  | 0, _ => fail "Command too deep"
  | fuel + 1, script => do
    let outer ← get
    set { outer with
      source := { rest := script }, delimiter := none, isDocument := false, awaited := [],
      isPushedBack := false }
    let (body, _) ← tryCatch (readList fuel true true none) fun e =>
      throw { e with touchedEnd := outer.touchedEnd }
    let s ← get
    set { outer with
      documents := s.documents, nextDocument := s.nextDocument, isPushedBack := false }
    return body

def readSubstitution : Nat → Reading Command
  | 0 => fail "Command too deep"
  | fuel + 1 => do
    let outer ← get
    set { outer with
      delimiter := none, isDocument := false, awaited := [], isPushedBack := false }
    let (body, _) ← readList fuel true true none
    if !(← readToken fuel {}).isOperator ")" then unexpectedFor "\")\""
    let s ← get
    set { s with
      delimiter := outer.delimiter, isDocument := outer.isDocument, awaited := outer.awaited,
      isPushedBack := false
      documents := (s.awaited.map fun (a : Awaited) => (a.number, [])) ++ s.documents }
    return body

def readBraced : Nat → Context → Reading (List Part)
  | 0, _ => fail "Command too deep"
  | fuel + 1, inner => do
    let bad (name : Octets) : Reading (List Part) := do
      let _ ← readParts fuel inner []
      return [.parameter name .bad]
    let nameAt (c : Char) : Reading Octets :=
      if isNameStart c then Reading.takeWhile isNameChar fuel []
      else Reading.takeWhile Char.isDigit fuel []
    match ← peek with
    | none => bad []
    | some '\x7d' => bad []
    | some '#' =>
      skip
      match ← peek with
      | none => bad []
      | some c =>
        if isNameChar c then
          let name ← nameAt c
          let isWhole := (← peek) = some '\x7d'
          let _ ← readParts fuel inner []
          return [.parameter name (if isWhole then .length else .bad)]
        else
          skip
          if c ≠ '\x7d' ∧ (← peek) = some '\x7d' then
            let _ ← readParts fuel inner []
            return [.parameter [c] (if isSpecialParameter c then .length else .bad)]
          else readUse fuel inner ['#'] c
    | some c =>
      let name ← do
        if isNameStart c || c.isDigit then nameAt c
        else if isSpecialParameter c then
          skip
          pure [c]
        else pure []
      if name.isEmpty then
        skip
        bad []
      else
        match ← peek with
        | none => bad name
        | some c =>
          skip
          readUse fuel inner name c

def readUse : Nat → Context → Octets → Char → Reading (List Part)
  | 0, _, _, _ => fail "Command too deep"
  | fuel + 1, inner, name, c => do
    let fallback? (c : Char) : Option Fallback :=
      [('-', .useWord), ('=', .assignWord), ('?', .complain), ('+', .useWordIfSet)].lookup c
    let bad : Reading (List Part) := do
      let _ ← readParts fuel inner []
      return [.parameter name .bad]
    let fallback (kind : Fallback) (colon : Bool) : Reading (List Part) := do
      return [.parameter name (.fallback kind colon (← readParts fuel inner []))]
    let trim (suffix : Bool) : Reading (List Part) := do
      let longest ← takeIf c
      return [.parameter name (.trim suffix longest (← readParts fuel (.brace false) []))]
    match c, fallback? c with
    | '\x7d', _ => return [.parameter name .plain]
    | '%', _ => trim true
    | '#', _ => trim false
    | _, some kind => fallback kind false
    | ':', none =>
      match ← peek with
      | none => bad
      | some c =>
        skip
        match fallback? c with
        | some kind => fallback kind true
        | none =>
          if c = '\x7d' then return .parameter name .plain :: (← readParts fuel inner [])
          else bad
    | _, none => bad

def readDocuments : Nat → List Awaited → Reading Unit
  | 0, _ => fail "Command too deep"
  | _, [] => return
  | fuel + 1, a :: rest => do
    modify fun s =>
      { s with
        awaited := [], isPushedBack := false, isDocument := true, isDelimited := false
        delimiter := some (a.delimiter, a.stripTabs) }
    let body ← do
      if a.isQuoted then pure [Part.single (← readLiteralLines fuel [])]
      else if ← meetsDelimiter then pure []
      else readParts fuel .document []
    modify fun s =>
      { s with
        isDocument := false, isDelimited := false, delimiter := none
        documents := (a.number, settleParts s.documents body) :: s.documents }
    readDocuments fuel rest

def readRawToken : Nat → Reading Token
  | 0 => fail "Command too deep"
  | fuel + 1 => do
    let s ← get
    if s.isPushedBack then
      set { s with isPushedBack := false }
      return s.token
    else
      skipBlanks fuel
      match ← peek with
      | none => setToken .finish
      | some '\n' =>
        skip
        nextLine
        setToken .newline
      | some c =>
        if c = '&' ∨ c = '|' ∨ c = ';' ∨ c = '(' ∨ c = ')' then readOperator c
        else
          let parts ← readParts fuel .bare []
          let next ← peek
          match redirectDigit? parts, next == some '<' || next == some '>' with
          | some digit, true => setToken (.redirection (← readRedirectHead digit))
          | _, _ =>
            modify fun s => { s with word := parts }
            setToken (.word parts (parts.any isQuotation))

def readToken : Nat → Checks → Reading Token
  | 0, _ => fail "Command too deep"
  | fuel + 1, checks => do
    let token ← readRawToken fuel
    match checks.newlines, token with
    | true, .newline =>
      readDocuments fuel (← get).awaited
      modify fun s => { s with checkAlias := false }
      readToken fuel checks
    | _, .word parts false =>
      let checks := { checks with aliases := checks.aliases || (← get).checkAlias }
      modify fun s => { s with checkAlias := false }
      match literal? parts with
      | none => return token
      | some text =>
        if checks.reserved && isReserved text then setToken (.reserved (String.ofList text))
        else if checks.aliases then
          match ← alias? text with
          | none => return token
          | some text' =>
            if !text'.isEmpty then insert text text'
            readToken fuel checks
        else return token
    | _, token =>
      modify fun s => { s with checkAlias := false }
      return token

def readRedirect : Nat → RedirectHead → Reading Redirect
  | 0, _ => fail "Command too deep"
  | fuel + 1, head => do
    let isDocument := head.kind = .document
    modify fun s => { s with isLiteral := isDocument }
    let token ← readToken fuel {}
    modify fun s => { s with isLiteral := false }
    match token with
    | .word parts isQuoted =>
      if isDocument then
        let number := (← get).nextDocument
        let a : Awaited := ⟨number, plainText parts, head.stripTabs, isQuoted⟩
        modify fun s => { s with nextDocument := number + 1, awaited := s.awaited ++ [a] }
        return .pending head.descriptor number
      else return .mk head.descriptor head.kind parts
    | _ => unexpected

def readRedirects : Nat → Checks → List Redirect → Reading (List Redirect)
  | 0, _, _ => fail "Command too deep"
  | fuel + 1, checks, found => do
    match ← readToken fuel checks with
    | .redirection head => readRedirects fuel {} ((← readRedirect fuel head) :: found)
    | _ =>
      pushBack
      return found.reverse

def readList : Nat → Bool → Bool → Option Command → Reading (Command × Bool)
  | 0, _, _, _ => fail "Command too deep"
  | fuel + 1, ofLines, mayEnd, found => do
    let token ← readToken fuel { newlines := ofLines, reserved := true, aliases := true }
    let command := found.getD .empty
    match token with
    | .newline =>
      readDocuments fuel (← get).awaited
      return (command, false)
    | .finish =>
      readDocuments fuel (← get).awaited
      modify fun s => { s with isPushedBack := true, token := .finish }
      return (command, !ofLines && found.isNone)
    | _ =>
      pushBack
      if mayEnd && token.endsList then return (command, false)
      else
        let command ← readAndOr fuel
        let token ← readToken fuel {}
        let command := if token.isOperator "&" then command.detach else command
        let command := Command.followedBy found command
        match token with
        | .finish =>
          readDocuments fuel (← get).awaited
          modify fun s => { s with isPushedBack := true, token := .finish }
          return (command, false)
        | .newline =>
          pushBack
          readList fuel ofLines ofLines (some command)
        | .operator ";" | .operator "&" => readList fuel ofLines ofLines (some command)
        | _ =>
          if !ofLines then unexpected
          else
            pushBack
            return (command, false)

def readBody : Nat → Reading Command
  | 0 => fail "Command too deep"
  | fuel + 1 => return (← readList fuel true false none).1

def readAndOr : Nat → Reading Command
  | 0 => fail "Command too deep"
  | fuel + 1 => do readAlternatives fuel (← readPipeline fuel {})

def readAlternatives : Nat → Command → Reading Command
  | 0, _ => fail "Command too deep"
  | fuel + 1, first => do
    match ← readToken fuel {} with
    | .operator "&&" => readAlternatives fuel (.both first (← readPipeline fuel ofLine))
    | .operator "||" => readAlternatives fuel (.either first (← readPipeline fuel ofLine))
    | _ =>
      pushBack
      return first

def readPipeline : Nat → Checks → Reading Command
  | 0, _ => fail "Command too deep"
  | fuel + 1, checks => do
    let isNegated := (← readToken fuel checks).isReserved "!"
    let first ← do
      if isNegated then readCommand fuel ofWord
      else
        pushBack
        readCommand fuel {}
    let stages ← readStages fuel [first]
    let command := match stages with
      | [single] => single
      | stages => .pipeline false stages
    return if isNegated then .negated command else command

def readStages : Nat → List Command → Reading (List Command)
  | 0, _ => fail "Command too deep"
  | fuel + 1, found => do
    match ← readToken fuel {} with
    | .operator "|" => readStages fuel ((← readCommand fuel ofLine) :: found)
    | _ =>
      pushBack
      return found.reverse

def expect : Nat → String → Reading Unit
  | 0, _ => fail "Command too deep"
  | fuel + 1, word => do
    let token ← readToken fuel {}
    if !(token.isReserved word || token.isOperator word) then unexpectedFor ("\"" ++ word ++ "\"")

def readCommand : Nat → Checks → Reading Command
  | 0, _ => fail "Command too deep"
  | fuel + 1, checks => do
    let line := (← get).source.line
    let compound (body : Command) : Reading Command := do
      match ← readRedirects fuel ofWord [] with
      | [] => return body
      | redirects => return .redirected line body redirects
    match ← readToken fuel checks with
    | .reserved "if" =>
      let body ← readBranch fuel
      compound body
    | .reserved "while" =>
      let body ← readLoop fuel false
      compound body
    | .reserved "until" =>
      let body ← readLoop fuel true
      compound body
    | .reserved "for" =>
      let body ← readEach fuel line
      compound body
    | .reserved "case" =>
      let body ← readChoose fuel line
      compound body
    | .reserved "\x7b" =>
      let body ← readBody fuel
      expect fuel "\x7d"
      compound body
    | .operator "(" =>
      let body ← readBody fuel
      expect fuel ")"
      return .subshell line body (← readRedirects fuel ofWord [])
    | .word .. | .redirection _ =>
      pushBack
      readSimple fuel (← get).source.line { aliases := true } [] [] []
    | _ => unexpected

def readBranch : Nat → Reading Command
  | 0 => fail "Command too deep"
  | fuel + 1 => do
    let condition ← readBody fuel
    expect fuel "then"
    let consequence ← readBody fuel
    match ← readToken fuel {} with
    | .reserved "elif" => return .branch condition consequence (← readBranch fuel)
    | .reserved "else" =>
      let alternative ← readBody fuel
      expect fuel "fi"
      return .branch condition consequence alternative
    | _ =>
      pushBack
      expect fuel "fi"
      return .branch condition consequence .empty

def readLoop : Nat → Bool → Reading Command
  | 0, _ => fail "Command too deep"
  | fuel + 1, untilTrue => do
    let condition ← readBody fuel
    expect fuel "do"
    let body ← readBody fuel
    expect fuel "done"
    return .loop untilTrue condition body

def readItems : Nat → List Word → Reading (List Word)
  | 0, _ => fail "Command too deep"
  | fuel + 1, items => do
    match ← readToken fuel {} with
    | .word parts _ => readItems fuel (parts :: items)
    | .newline | .operator ";" => return items.reverse
    | _ => unexpected

def readEach : Nat → Nat → Reading Command
  | 0, _ => fail "Command too deep"
  | fuel + 1, line => do
    match ← readToken fuel {} with
    | .word parts false =>
      match name? parts with
      | none => fail "Bad for loop variable"
      | some name =>
        let items ← do
          match ← readToken fuel ofLine with
          | .reserved "in" => pure (some (← readItems fuel []))
          | .operator ";" => pure none
          | _ =>
            pushBack
            pure none
        if !(← readToken fuel ofLine).isReserved "do" then unexpectedFor "\"do\""
        let body ← readBody fuel
        expect fuel "done"
        return .each line name items body
    | _ => fail "Bad for loop variable"

/-- The patterns of an arm after the first token of it; a token that is no word leaves the word that
was read last. -/
def readPatterns : Nat → List Word → Reading (List Word)
  | 0, _ => fail "Command too deep"
  | fuel + 1, found => do
    let found := (← get).word :: found
    match ← readToken fuel {} with
    | .operator "|" =>
      let _ ← readToken fuel {}
      readPatterns fuel found
    | token => if token.isOperator ")" then return found.reverse else unexpectedFor "\")\""

def readArms : Nat → List (List Word × Command) → Reading (List (List Word × Command))
  | 0, _ => fail "Command too deep"
  | fuel + 1, found => do
    let toArm : Checks := { newlines := true, reserved := true }
    let first ← readToken fuel toArm
    if first.isReserved "esac" then return found.reverse
    else
      if first.isOperator "(" then
        let _ ← readToken fuel {}
      let patterns ← readPatterns fuel []
      let (body, _) ← readList fuel true true none
      let found := (patterns, body) :: found
      let next ← readToken fuel toArm
      if next.isReserved "esac" then return found.reverse
      else if next.isOperator ";;" then readArms fuel found
      else unexpectedFor "\";;\""

def readChoose : Nat → Nat → Reading Command
  | 0, _ => fail "Command too deep"
  | fuel + 1, line => do
    match ← readToken fuel {} with
    | .word subject _ =>
      if !(← readToken fuel ofLine).isReserved "in" then unexpectedFor "\"in\""
      return .choose line subject (← readArms fuel [])
    | _ => unexpectedFor "word"

def readSimple : Nat → Nat → Checks → List (Octets × Word) → List Word → List Redirect →
    Reading Command
  | 0, _, _, _, _, _ => fail "Command too deep"
  | fuel + 1, line, checks, assignments, words, redirects => do
    match ← readToken fuel checks with
    | .word parts _ =>
      match checks.aliases, assignment? parts with
      | true, some assignment =>
        readSimple fuel line checks (assignment :: assignments) words redirects
      | _, _ => readSimple fuel line {} assignments (parts :: words) redirects
    | .redirection head =>
      let redirect ← readRedirect fuel head
      readSimple fuel line checks assignments words (redirect :: redirects)
    | token =>
      match token.isOperator "(", words, assignments, redirects with
      | true, [word], [], [] =>
        expect fuel ")"
        match name? word with
        | none => fail "Bad function name"
        | some name =>
          if isSpecialBuiltin name then fail "Bad function name"
          else return .define name (← readCommand fuel ofLine)
      | _, _, _, _ =>
        pushBack
        return .simple line assignments.reverse words.reverse redirects.reverse

end

/-- A script is read one complete command at a time, because a command may change how the next one
is read. `isLast` says that nothing follows it, not even the end of a line. -/
structure Complete where
  command : Option Command
  after : Source
  isLast : Bool
  touchedEnd : Bool

/-- Fuel bounds how deep the reader recurs; this is more than the text has characters to spend it
on, those of its aliases included. -/
def readFuel (source : Source) (aliases : List (Octets × Octets)) : Nat :=
  1000 + 20 * aliases.foldl (fun n a => n + a.2.length) (2 * source.rest.length)

def readComplete (source : Source) (aliases : List (Octets × Octets)) :
    Except ReadError Complete :=
  match (readList (readFuel source aliases) false false none).run { source, aliases } with
  | .error e => .error e
  | .ok ((command, isFinished), s) =>
    let isLast := s.isPushedBack && match s.token with
      | .finish => true
      | _ => false
    .ok ⟨if isFinished then none else some (command.settle s.documents), s.source, isLast,
      s.touchedEnd⟩

/-- A text in which parameters and substitutions count as in double quotes, but no quotes do. -/
def readPrompt (text : Octets) : Option Word :=
  let source : Source := { rest := text }
  match (readParts (readFuel source []) .document []).run { source, isDocument := true } with
  | .error _ => none
  | .ok (parts, s) => some (settleParts s.documents parts)

end LoginSession.Shell
