import LoginSession.Machine.Simple

namespace LoginSession.Shell.Turn

open Host (Octets Handle Descriptors)

/-- Names of programs in a pipeline are looked up before its processes are started. -/
def lookAhead (t : Turn) : Command → Turn
  | .simple _ _ (word :: _) _ =>
    match name? word with
    | some name =>
      { t with state := (locate t.state t.host.files t.cwd false none name).2 }
    | none => t
  | _ => t

/-- Starts the stages of a pipeline, each reading from the one before it. In the background the
first one reads nothing. -/
def stages (t : Turn) (inBackground tested : Bool) (input : Option Handle) (started : List Nat) :
    List Command → Turn × List Nat
  | [] => (t, started.reverse)
  | stage :: rest =>
    let t := t.lookAhead stage
    let input := if inBackground && started.isEmpty then some .null else input
    let own := match input with
      | some handle => t.descriptors.put 0 handle
      | none => t.descriptors
    let start (t : Turn) (descriptors : Descriptors) : Turn × Nat :=
      let state := childState t.state [.evaluate stage tested true]
      if inBackground then t.background state descriptors else t.fork state descriptors
    match rest with
    | [] =>
      let (t, child) := start t own
      (t, (child :: started).reverse)
    | rest =>
      let (host, pipe) := t.host.makePipe false
      let (t, child) := start { t with host } (own.put 1 (.writer pipe))
      stages t inBackground tested (some (.reader pipe)) (child :: started) rest

def pipeline (t : Turn) (inBackground : Bool) (commands : List Command) (tested : Bool) : Turn :=
  let (t, children) := t.stages inBackground tested none [] commands
  if inBackground then (t.addJob children).push [.checkFailure tested]
  else t.push [.await (children.map fun n => (n, none)), .checkFailure tested]

def within (t : Turn) (targets : List Target) (body : Command) (tested : Bool) : Turn :=
  let (t, saved, fault) := t.applyTargets targets
  match fault with
  | some text => (t.push [.restoreDescriptors saved]).fail text
  | none => (t.setDescriptors (confirmAll t.descriptors saved)).push [.evaluate body tested true]

def redirected (t : Turn) (targets : List Target) (purpose : Purpose) (tested last : Bool) :
    Turn :=
  match purpose with
  | .compound body =>
    let (t, saved, fault) := t.applyTargets targets
    let undo : List Frame := if saved.isEmpty then [] else [.restoreDescriptors saved]
    match fault with
    | some text => ((t.setStatus 2).push (undo ++ [.checkFailure tested])).complain text
    | none => t.push (.evaluate body tested false :: undo)
  | .subshell body =>
    if last && !t.state.hasTraps then t.within targets body tested
    else (t.push [.checkFailure tested]).forkAndWait [.within targets body tested]
  | .background body =>
    let state := childState t.state [.within targets body false]
    let (t, child) := t.background state (t.descriptors.put 0 .null)
    (t.addJob [child]).push [.checkFailure tested]

def redirect (t : Turn) (targets : List Target) (purpose : Purpose) (tested last : Bool) :
    List Redirect → Turn
  | [] => t.redirected targets purpose tested last
  | first :: rest =>
    t.expanding (.redirect (first :: rest) targets purpose tested last) (expandTarget first)
      fun t target => redirect t (targets ++ [target]) purpose tested last rest

def atLine (t : Turn) (line : Nat) : Turn := { t with state.line := line }

/-- Begins a command. Nothing is begun while something is being skipped, or nothing is to be. -/
def evaluate (t : Turn) (c : Command) (tested last : Bool) : Turn :=
  if t.state.skip.isSome || t.state.isOn .noExecution then t
  else
    match c with
    | .empty => t
    | .simple line assignments words redirects =>
      t.simple line assignments words redirects tested last
    | .redirected line body redirects =>
      (t.atLine line).redirect [] (.compound body) tested last redirects
    | .subshell line body redirects =>
      (t.atLine line).redirect [] (.subshell body) tested last redirects
    | .background line body redirects =>
      (t.atLine line).redirect [] (.background body) tested last redirects
    | .pipeline inBackground stages => t.pipeline inBackground stages tested
    | .negated body => t.push [.evaluate body true false, .negate]
    | .both first second =>
      t.push [.evaluate first true false, .continueIf true second tested last]
    | .either first second =>
      t.push [.evaluate first true false, .continueIf false second tested last]
    | .sequence first second =>
      t.push [.evaluate first tested false, .evaluate second tested last]
    | .branch condition consequence alternative =>
      t.push [.evaluate condition true false, .select consequence alternative tested last]
    | .loop untilTrue condition body =>
      { t with state.loops := t.state.loops + 1 }.push
        [.beginLoop untilTrue condition body tested 0]
    | .each line name items body =>
      let t := t.atLine line
      match items with
      | none => t.push [.collectItems name [] t.state.arguments body tested]
      | some words => t.push [.collectItems name words [] body tested]
    | .choose line subject arms => (t.atLine line).push [.choose (.inl subject) arms tested last]
    | .define name body =>
      let functions := (name, body) :: t.state.functions.filter (·.1 ≠ name)
      let found := t.state.found.filter (·.1 ≠ name)
      { t with state := { t.state with functions, found, status := 0 } }

def endLoops (t : Turn) (status : Nat) : Turn :=
  { t with state := { t.state with status, loops := t.state.loops - 1 } }

def decideLoop (t : Turn) (untilTrue : Bool) (condition body : Command) (tested : Bool)
    (status : Nat) : Turn :=
  let s := t.state
  match s.skip with
  | none =>
    if (s.status = 0) = untilTrue then t.endLoops status
    else t.push [.evaluate body tested false, .endLoop untilTrue condition body tested]
  | some skip =>
    let status := match skip with
      | .return _ => s.status
      | _ => status
    match s.afterLoop with
    | (state, true) => { t with state }.endLoops status
    | (state, false) => { t with state }.push [.beginLoop untilTrue condition body tested status]

def endLoop (t : Turn) (untilTrue : Bool) (condition body : Command) (tested : Bool) : Turn :=
  let status := t.state.status
  match t.state.afterLoop with
  | (state, true) => { t with state }.endLoops status
  | (state, false) => { t with state }.push [.beginLoop untilTrue condition body tested status]

def collectItems (t : Turn) (name : Octets) (items : List Octets) (body : Command)
    (tested : Bool) : List Word → Turn
  | [] =>
    { t with state.loops := t.state.loops + 1 }.push [.beginEach name items body tested 0]
  | word :: rest =>
    let expand : Expanding (List Octets) := do
      return fieldsOf (← Expanding.state) t.host.files t.cwd (← expandRegions word)
    t.expanding (.collectItems name (word :: rest) items body tested) expand fun t fields =>
      collectItems t name (items ++ fields) body tested rest

def beginEach (t : Turn) (name : Octets) (items : List Octets) (body : Command) (tested : Bool)
    (status : Nat) : Turn :=
  match items with
  | [] => t.endLoops status
  | item :: rest =>
    match t.state.assign name item with
    | .ok state =>
      { t with state }.push [.evaluate body tested false, .endEach name rest body tested]
    | .error fault => t.fail fault

def endEach (t : Turn) (name : Octets) (items : List Octets) (body : Command) (tested : Bool) :
    Turn :=
  let status := t.state.status
  match t.state.afterLoop with
  | (state, true) => { t with state }.endLoops status
  | (state, false) => { t with state }.push [.beginEach name items body tested status]

def select (t : Turn) (consequence alternative : Command) (tested last : Bool) : Turn :=
  if t.state.skip.isSome then t
  else if t.state.status = 0 then t.push [.evaluate consequence tested last]
  else
    match alternative with
    | .empty => t.setStatus 0
    | alternative => t.push [.evaluate alternative tested last]

def chooseBody (t : Turn) (body : Command) (tested last : Bool) : Turn :=
  match body with
  | .empty => t.setStatus 0
  | body => t.push [.evaluate body tested last]

def choose (t : Turn) (subject : Word ⊕ Octets) (arms : List (List Word × Command))
    (tested last : Bool) : Turn :=
  match subject, arms with
  | .inl word, arms =>
    t.expanding (.choose subject arms tested last) (expandText word) fun t text =>
      t.push [.choose (.inr text) arms tested last]
  | .inr _, [] => t.setStatus 0
  | .inr text, ([], _) :: rest => t.push [.choose (.inr text) rest tested last]
  | .inr text, (pattern :: others, body) :: rest =>
    t.expanding (.choose subject arms tested last) (expandPattern pattern) fun t pattern =>
      if Pattern.accepts (Pattern.ofText pattern) text then t.chooseBody body tested last
      else t.push [.choose (.inr text) ((others, body) :: rest) tested last]

def verbose (t : Turn) (before after : Source) : Turn :=
  if t.state.isOn .verbose then
    let read := before.rest.take (before.rest.length - after.rest.length)
    t.push [.emit 2 (Octets.toBytes read) []]
  else t

def script (t : Turn) (origin : Origin) (source : Source) (ran tested last : Bool) : Turn :=
  let shown (t : Turn) (after : Source) : Turn :=
    if origin = .file then t.verbose source after else t
  if t.state.skip.isSome then t
  else
    match readComplete source t.state.aliases with
    | .error e => shown (t.failAt e.line e.text.toList) { source with rest := [] }
    | .ok read =>
      let t := { t with state.readLine := read.after.line }
      match read.command with
      | none => if ran then t else t.setStatus 0
      | some .empty =>
        shown (t.push [.script origin read.after ran tested last]) read.after
      | some command =>
        let frames : List Frame :=
          if read.isLast then [.evaluate command tested last]
          else [.evaluate command tested false, .script origin read.after true tested last]
        shown (t.push frames) read.after

/-- A script is read in blocks of so many bytes. -/
def block : Nat := 8192

/-- The next command of a script that is read from a descriptor, or more of its text if that might
change the command. -/
def readScript (t : Turn) (descriptor : Nat) (source : Source) (ran : Bool) : Turn × Bool :=
  let again (source : Source) : Turn := t.push [.readScript descriptor source ran]
  let whole : Turn := t.push [.script .file source ran false false]
  let more : Turn × Bool :=
    match t.descriptors.get? descriptor with
    | none => (whole, true)
    | some handle =>
      match t.host.read handle block with
      | (host, .bytes bytes) =>
        let text := (Octets.ofBytes bytes).filter (· ≠ '\x00')
        ({ again { source with rest := source.rest ++ text } with host }, true)
      | (_, .blocked) => (t, false)
      | (_, _) => (whole, true)
  if t.state.skip.isSome then (t, true)
  else if source.rest.isEmpty then more
  else
    match readComplete source t.state.aliases with
    | .error e =>
      if e.touchedEnd then more
      else ((t.failAt e.line e.text.toList).verbose source { source with rest := [] }, true)
    | .ok read =>
      if read.touchedEnd then more
      else
        let t := { t with state.readLine := read.after.line }
        let command : List Frame := match read.command with
          | none | some .empty => []
          | some command => [.evaluate command false false]
        let ran := ran || !command.isEmpty
        ((t.push (command ++ [.readScript descriptor read.after ran])).verbose source read.after,
          true)

def leaveScript (t : Turn) (descriptor : Option Nat) : Turn :=
  let t := match descriptor with
    | some n => t.setDescriptors (t.descriptors.close n)
    | none => t
  match t.state.skip with
  | some (.return _) => { t with state.skip := none }
  | _ => t

def leaveFunction (t : Turn) (arguments : List Octets) (options : OptionPlace) (loops : Nat) :
    Turn :=
  let t := { t with state := { t.state with arguments, options, loops } }
  let t := (t.collectSince Host.latency).1
  match t.state.skip with
  | some (.return _) => { t with state.skip := none }
  | _ => t

def emit (t : Turn) (descriptor : Nat) (bytes : List UInt8) (command : Octets) : Turn × Bool :=
  let refused : Turn :=
    if command.isEmpty then t
    else (t.setStatus (t.state.status ||| 1)).complain (command ++ ": I/O error".toList)
  if bytes.isEmpty then (t, true)
  else
    match t.descriptors.get? descriptor with
    | none => (refused, true)
    | some handle =>
      match t.host.write handle bytes with
      | (host, .wrote n) =>
        let t := { t with host }
        let rest := bytes.drop n
        (if rest.isEmpty then t else t.push [.emit descriptor rest command], true)
      | (_, .blocked) => (t, false)
      | (_, .brokenPipe) =>
        if (t.process?.map (·.ignored.contains Signal.pipe.number)).getD false then (refused, true)
        else if (t.process?.map (·.caught.contains Signal.pipe.number)).getD false then
          ({ refused with host := refused.host.deliver t.pid .pipe }, true)
        else ({ t with host := t.host.deliver t.pid .pipe }, true)
      | (_, .fault _) => (refused, true)

/-- The regions of a line: characters after backslashes divide it no further. A line's end after a
backslash is no character, but begins a new region. -/
def lineRegions : List Region → List (Char × Bool) → List Region
  | done, [] => done.reverse
  | done, (c, true) :: rest =>
    let region : Region := ⟨if c = '\n' then [] else [.char c true], .fixed⟩
    lineRegions (⟨[], .free⟩ :: region :: done) rest
  | ⟨marks, .free⟩ :: done, (c, false) :: rest =>
    lineRegions (⟨marks ++ [.char c false], .free⟩ :: done) rest
  | done, (c, false) :: rest => lineRegions (⟨[.char c false], .free⟩ :: done) rest

def assignFields (s : State) : List Octets → List Octets → Except Octets State
  | [], _ => .ok s
  | name :: names, [] => do assignFields (← s.assignChecked name []) names []
  | name :: names, field :: fields => do assignFields (← s.assignChecked name field) names fields

def finishRead (t : Turn) (names : List Octets) (taken : List (Char × Bool)) (status : Nat) :
    Turn :=
  let regions := lineRegions [⟨[], .free⟩] taken.reverse
  let fields := (Fields.ofRegions t.state.separators (some names.length) regions).map Mark.text
  match assignFields t.state names fields with
  | .ok state => { t with state := { state with status } }
  | .error fault => (t.setStatus 2).complain fault

def readCharacter (t : Turn) (names : List Octets) (raw escaped : Bool)
    (taken : List (Char × Bool)) : Turn × Bool :=
  match t.descriptors.get? 0 with
  | none => (t.finishRead names taken 1, true)
  | some handle =>
    match t.host.read handle 1 with
    | (host, .bytes bytes) =>
      let t := { t with host }
      let frame (escaped : Bool) (taken : List (Char × Bool)) : Turn :=
        t.push [.readLine names raw escaped taken]
      match Octets.ofBytes bytes with
      | [c] =>
        if c = '\x00' then (frame escaped taken, true)
        else if escaped then (frame false ((c, true) :: taken), true)
        else if c = '\\' && !raw then (frame true taken, true)
        else if c = '\n' then (t.finishRead names taken 0, true)
        else (frame false ((c, false) :: taken), true)
      | _ => (frame escaped taken, true)
    | (_, .blocked) =>
      if t.pending.isEmpty then (t, false) else (t.finishRead names taken 1, true)
    | (_, _) => (t.finishRead names taken 1, true)

/-- The signal that ends waiting: the one that came in last. -/
def interrupted (t : Turn) (wait : Turn × Bool) : Turn × Bool :=
  match t.pending.getLast? with
  | some number => (t.setStatus (128 + number), true)
  | none => wait

def waitTarget (t : Turn) (word : Octets) : Except Octets (Option (Nat × Job)) :=
  match word with
  | '%' :: _ => (t.state.jobs.find (some word)).map some
  | word =>
    match State.count? word with
    | some process =>
      .ok ((t.state.jobs.placeOf? process).bind fun place =>
        (t.state.jobs.get? place).map fun job => (place, job))
    | none => .error (State.illegalNumber word)

def waitFor (t : Turn) (words : List Octets) (status : Nat) : Turn × Bool :=
  match words with
  | [] => (t.setStatus status, true)
  | word :: rest =>
    match t.waitTarget word with
    | .error fault => ((t.setStatus 2).complain fault, true)
    | .ok none => (t.push [.wait rest status], true)
    | .ok (some (place, job)) =>
      if job.isDone then
        let t := { t with state.jobs := t.state.jobs.waitFor place }
        (t.push [.wait rest job.status], true)
      else
        let (next, ended) := t.collect
        if ended.isEmpty then t.interrupted (t, false)
        else (next.push (deaths job.processes ended ++ [.wait words status]), true)

def waitAll (t : Turn) : Turn × Bool :=
  let (next, ended) := t.collect
  let s := next.state
  if s.jobs.listed.all (·.2.isDone) then
    let jobs := s.jobs.listed.foldl (fun jobs (place, _) => jobs.waitFor place) s.jobs
    ({ next with state := { s with jobs, status := 0 } }, true)
  else if ended.isEmpty then t.interrupted (t, false)
  else (next.push [.waitAll], true)

def execute (t : Turn) (words : List Octets) (environment : Host.Environment)
    (searchPath : Option Octets) : Turn × Bool :=
  let name := words.headD []
  let loaded := if name.isEmpty then .error .accessDenied
    else t.host.load t.pid environment searchPath words
  match loaded with
  | .ok host => ({ t with host, replaced := true }, true)
  | .error e =>
    let isMissing := e = .noEntry ∨ e = .notDirectory ∨ e = .nameTooLong
    let t := t.setStatus (if isMissing then 127 else 126)
    (t.push [t.complaint (name ++ ": ".toList ++ notRunText e), .exit .finish], true)

def frame (t : Turn) : Frame → Turn × Bool
  | .script origin source ran tested last => (t.script origin source ran tested last, true)
  | .readScript descriptor source ran => t.readScript descriptor source ran
  | .evaluate c tested last => (t.evaluate c tested last, true)
  | .continueIf onSuccess second tested last =>
    (if (t.state.status = 0) = onSuccess then t.push [.evaluate second tested last] else t, true)
  | .negate =>
    (if t.state.skip.isSome then t else t.setStatus (if t.state.status = 0 then 1 else 0), true)
  | .select consequence alternative tested last =>
    (t.select consequence alternative tested last, true)
  | .beginLoop untilTrue condition body tested status =>
    (t.push [.evaluate condition true false, .decideLoop untilTrue condition body tested status],
      true)
  | .decideLoop untilTrue condition body tested status =>
    (t.decideLoop untilTrue condition body tested status, true)
  | .endLoop untilTrue condition body tested => (t.endLoop untilTrue condition body tested, true)
  | .collectItems name words items body tested => (t.collectItems name items body tested words, true)
  | .beginEach name items body tested status => (t.beginEach name items body tested status, true)
  | .endEach name items body tested => (t.endEach name items body tested, true)
  | .choose subject arms tested last => (t.choose subject arms tested last, true)
  | .prepare p tested last => (t.prepare p tested last, true)
  | .redirect redirects targets purpose tested last =>
    (t.redirect targets purpose tested last redirects, true)
  | .within targets body tested => (t.within targets body tested, true)
  | .substitute pipe child taken retry => t.takeOutput pipe child taken retry
  | .collect child output retry => t.takeAnswer child output retry
  | .restoreDescriptors saved => (t.setDescriptors (restoreAll t.descriptors saved), true)
  | .leaveScope => ({ t with state := t.state.leaveScope }, true)
  | .leaveFunction arguments options loops => (t.leaveFunction arguments options loops, true)
  | .leaveScript descriptor => (t.leaveScript descriptor, true)
  | .restoreCommandName commandName => ({ t with state.commandName := commandName }, true)
  | .finishBuiltin _ => ((t.collectSince Host.latency).1, true)
  | .await processes => t.await processes
  | .wait words status => t.waitFor words status
  | .waitAll => t.waitAll
  | .emit descriptor bytes command => t.emit descriptor bytes command
  | .readLine names raw escaped taken => t.readCharacter names raw escaped taken
  | .execute words environment searchPath => t.execute words environment searchPath
  | .setStatus status => (t.setStatus status, true)
  | .endTrap status saved => (t.endTrap status saved, true)
  | .endExit => ((t.setStatus (t.state.savedStatus.getD t.state.status)).terminate, true)
  | .checkFailure tested =>
    (if t.state.isOn .exitOnFailure && !tested && t.state.status ≠ 0 then t.endShell .finish else t,
      true)
  | .exit .fault => (t.raise, true)
  | .exit why => (t.endShell why, true)

def isBetweenCommands : Frame → Bool
  | .script .. | .readScript .. | .evaluate .. | .continueIf .. | .negate | .select ..
  | .beginLoop .. | .decideLoop .. | .endLoop .. | .beginEach .. | .endEach .. | .leaveFunction ..
  | .leaveScript _ | .endTrap .. | .endExit | .checkFailure _ => true
  | _ => false

/-- The lowest of the signals whose action is to be carried out now. While something is skipped they
wait. -/
def dueTrap? (t : Turn) : Option Nat :=
  let isTime := match t.state.stack with
    | [] => true
    | frame :: _ => isBetweenCommands frame
  if isTime && t.state.skip.isNone then t.pending.min? else none

def step (t : Turn) : Host × Bool :=
  match t.dueTrap?, t.state.stack with
  | some number, _ => ((t.runTrap number).done, true)
  | none, [] => ((t.endShell .finish).done, true)
  | none, frame :: rest =>
    match { t with state.stack := rest }.frame frame with
    | (next, true) => (next.done, true)
    | (_, false) => (t.host, false)

end LoginSession.Shell.Turn
