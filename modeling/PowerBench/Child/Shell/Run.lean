import PowerBench.Child.Shell.Builtin
import PowerBench.Child.Wait

/-!
# Running shell scripts

A script is run on a machine, line by line. A command in the background runs from the same moment on,
and can hold the output of the script open after the script has ended.
-/

set_option autoImplicit false

namespace PowerBench.Child.Shell

/-- A time, in nanoseconds, past every limit. -/
def longTime : Nat := Nat.pow 10 18

/-! ## Leaving -/

def Flow.closeSubshell (flow : Flow) (before after : Machine) : Flow × Machine :=
  match flow with
  | .leave n => (.next, before.afterSubshell after n)
  | .goBack n => (.next, before.afterSubshell after n)
  | .killed n => (.killed n, before.afterSubshell after (128 + n))
  | .stuck => (.stuck, before.afterSubshell after after.status)
  | _ => (.next, before.afterSubshell after after.status)

/-- What a script that was run as a program of its own comes to. -/
def Flow.closeProgram (flow : Flow) (before after : Machine) : Flow × Machine :=
  match flow with
  | .killed n =>
    let m := before.afterSubshell after (128 + n)
    let told := ((signals.find? fun s => s.1 == n).map (·.2.2)).getD ""
    (.next, if told.isEmpty then m else m.writeError (told ++ "\n"))
  | flow => flow.closeSubshell before after

/-- Ends the script where a command failed that should not have. -/
def checked (result : Flow × Machine) : Flow × Machine :=
  match result with
  | (.next, m) =>
    if m.status != 0 && m.options.contains 'e' && !m.guarded then (.leave m.status, m) else (.next, m)
  | other => other

/-- Ends the script where an expansion could not be made. -/
def unbroken (m : Machine) (go : Machine → Flow × Machine) : Flow × Machine :=
  if m.broken then (.leave 2, { m with broken := false }) else go m

/-- Runs a loop, where `break` and `continue` have a meaning. -/
def inLoop (m : Machine) (go : Machine → Flow × Machine) : Flow × Machine :=
  let (flow, after) := go { m with loops := m.loops + 1 }
  (flow, { after with loops := m.loops })

/-- The levels of a loop that are still to be left. -/
def afterLevel (flow : Flow) (m : Machine) : Flow × Machine :=
  match flow with
  | .goOn n => (.goOn (n - 1), m)
  | .breakOut n => if n ≤ 1 then (.next, { m with status := 0 }) else (.breakOut (n - 1), m)
  | other => (other, m)

/-! ## Scripts as programs -/

/-- Where the text of a script comes from. -/
inductive Origin where
  | text (script : String)
  | file (path : String)
  | input
deriving DecidableEq, Repr

structure ShellCall where
  options : List Char
  origin : Origin
  name : String
  parameters : List String
deriving DecidableEq, Repr

def shellOptions : List Char :=
  ['a', 'b', 'c', 'e', 'f', 'i', 'm', 'n', 's', 'u', 'v', 'x', 'C', 'E', 'I', 'V']

/-- The arguments of a shell called by the name `self`, or its complaint about them. -/
def shellCall (self : String) (args : List String) : Except String ShellCall :=
  let isOption (a : String) : Bool := a.startsWith "-" && a != "-" && a != "--"
  let letters := (args.takeWhile isOption).flatMap fun a => a.toList.drop 1
  let operands := match args.dropWhile isOption with
    | "--" :: rest => rest
    | "-" :: rest => rest
    | rest => rest
  let options := letters.filter fun c => c != 'c' && c != 's'
  match letters.find? fun c => !shellOptions.contains c with
  | some c => .error ("Illegal option -" ++ String.ofList [c])
  | none =>
    if letters.contains 'c' then
      match operands with
      | [] => .error "-c requires an argument"
      | [script] => .ok ⟨options, .text script, self, []⟩
      | script :: name :: rest => .ok ⟨options, .text script, name, rest⟩
    else
      match operands with
      | [] => .ok ⟨options, .input, self, []⟩
      | file :: rest =>
        if letters.contains 's' then .ok ⟨options, .input, self, operands⟩
        else .ok ⟨options, .file file, file, rest⟩

/-- The text of a script, or why its file cannot be opened. -/
def Origin.source (m : Machine) : Origin → Except String String
  | .text script => .ok script
  | .file path =>
    match openStream m path with
    | .ok s => .ok (Utf8.lossy s.bytes)
    | .error e =>
      .error ("cannot open " ++ path ++ ": "
        ++ if e == .missing then "No such file" else Utility.faultText e)
  | .input => .ok (Utf8.lossy m.input.bytes)

def asQuoted : Part → Part
  | .text cs _ => .text cs true
  | .parameter e _ => .parameter e true
  | .arithmetic s _ => .arithmetic s true
  | .output s _ => .output s true

/-! ## Parameters between braces -/

/-- What is done with the value of a parameter. -/
inductive Adjustment where
  | none
  | instead (orEmpty : Bool)
  | setting (orEmpty : Bool)
  | wanting (orEmpty : Bool)
  | when (orEmpty : Bool)
  | withoutStart (longest : Bool)
  | withoutEnd (longest : Bool)
deriving DecidableEq, Repr

/-- The adjustment after a name, and its word. -/
def adjustment? : List Char → Option (Adjustment × List Char)
  | [] => some (.none, [])
  | ':' :: '-' :: w => some (.instead true, w)
  | '-' :: w => some (.instead false, w)
  | ':' :: '=' :: w => some (.setting true, w)
  | '=' :: w => some (.setting false, w)
  | ':' :: '?' :: w => some (.wanting true, w)
  | '?' :: w => some (.wanting false, w)
  | ':' :: '+' :: w => some (.when true, w)
  | '+' :: w => some (.when false, w)
  | '#' :: '#' :: w => some (.withoutStart true, w)
  | '#' :: w => some (.withoutStart false, w)
  | '%' :: '%' :: w => some (.withoutEnd true, w)
  | '%' :: w => some (.withoutEnd false, w)
  | _ => none

/-- A text without the shortest or longest start that matches a pattern. -/
def withoutStart (longest : Bool) (pattern cs : List Char) : List Char :=
  let cuts := (List.range (cs.length + 1)).filter fun n => matchesPattern pattern (cs.take n)
  cs.drop (((if longest then cuts.getLast? else cuts.head?)).getD 0)

/-- A text without the shortest or longest end that matches a pattern. -/
def withoutEnd (longest : Bool) (pattern cs : List Char) : List Char :=
  let cuts := (List.range (cs.length + 1)).filter fun n => matchesPattern pattern (cs.drop n)
  cs.take (((if longest then cuts.head? else cuts.getLast?)).getD cs.length)

/-! ## Running -/

mutual

def run (fuel : Nat) (c : Command) (m : Machine) : Flow × Machine :=
  match fuel with
  | 0 => (.stuck, m)
  | fuel + 1 =>
    match c with
    | .nothing => (.next, m)
    | .simple line assignments words redirects =>
      let (values, m) := expandAll fuel words { m with line := line, substituted? := none }
      unbroken m fun m => checked (runSimple fuel assignments values redirects m)
    | .sequence a b =>
      match run fuel a m with
      | (.next, m) => run fuel b m
      | other => other
    | .both a b =>
      match runGuarded fuel a m with
      | (.next, m) => if m.status == 0 then run fuel b m else (.next, m)
      | other => other
    | .either a b =>
      match runGuarded fuel a m with
      | (.next, m) => if m.status == 0 then (.next, m) else run fuel b m
      | other => other
    | .negated a =>
      match runGuarded fuel a m with
      | (.next, m) => (.next, { m with status := if m.status == 0 then 1 else 0 })
      | other => other
    | .background a =>
      let (flow, after) := run fuel a { m with input := .empty }
      let ends := after.clock + if flow == .stuck then longTime else 0
      let (_, closed) := flow.closeSubshell m after
      let last := max m.ended (max after.ended ends)
      let number := ((m.job?.map Job.number).getD 1) + 1
      (.next,
        { m with
          status := 0, written := after.written, pipes := after.pipes, repeating := after.repeating
          files := after.files, job? := some ⟨number, closed.status⟩, ended := last
          held := if m.holdsOutput then max m.held (max after.held ends)
            else max m.held after.held })
    | .pipeline a b =>
      let n := m.pipes
      let (flow, left) := run fuel a ({ m with
        pipes := n + 1, readers := n :: m.readers }.pointTo 1 (.pipe n))
      let (flow, left) := flow.closeSubshell m left
      match flow with
      | .next =>
        let (flow, right) := run fuel b { left with input := left.stream n }
        let (flow, right) := flow.closeSubshell left right
        checked (flow, { right with input := m.input })
      | other => (other, left)
    | .group body redirects => withRedirects fuel redirects m (run fuel body)
    | .subshell body redirects =>
      checked <| withRedirects fuel redirects m fun ready =>
        let (flow, after) := run fuel body ready
        flow.closeSubshell ready after
    | .loop wanted condition body redirects =>
      withRedirects fuel redirects m fun ready =>
        inLoop ready (runLoop fuel wanted condition body 0)
    | .branch condition yes no =>
      match runGuarded fuel condition m with
      | (.next, m) =>
        if m.status == 0 then run fuel yes m else run fuel no { m with status := 0 }
      | other => other
    | .each name words body redirects =>
      let (values, m) := expandAll fuel words m
      unbroken m fun m => withRedirects fuel redirects m fun ready =>
        inLoop { ready with status := 0 } (runEach fuel (String.ofList name) values body)
    | .choice subject arms redirects =>
      let (fields, m) := expandParts fuel (subject.map asQuoted) .empty m
      unbroken m fun m => withRedirects fuel redirects m (runArms fuel fields.text arms)
    | .define name body =>
      let name := String.ofList name
      (.next, { m with
        status := 0, functions := (name, body) :: m.functions.filter (·.1 != name) })

/-- Runs a command whose failure is expected. -/
def runGuarded (fuel : Nat) (c : Command) (m : Machine) : Flow × Machine :=
  match fuel with
  | 0 => (.stuck, m)
  | fuel + 1 =>
    let (flow, after) := run fuel c { m with guarded := true }
    (flow, { after with guarded := m.guarded })

/-- Runs with some redirections, which end with the command. -/
def withRedirects (fuel : Nat) (redirects : List Redirect) (m : Machine)
    (go : Machine → Flow × Machine) : Flow × Machine :=
  match fuel with
  | 0 => (.stuck, m)
  | fuel + 1 =>
    match applyAll fuel redirects m with
    | (false, after) => (.next, after.withDescriptors m)
    | (true, ready) =>
      let (flow, after) := go ready
      let input := if redirects.any (·.descriptor == 0) then m.input else after.input
      (flow, { after with sinks := m.sinks, input := input })

/-- Runs a simple command whose words are expanded. -/
def runSimple (fuel : Nat) (assignments : List (List Char × Word)) (words : List String)
    (redirects : List Redirect) (m : Machine) : Flow × Machine :=
  match fuel with
  | 0 => (.stuck, m)
  | fuel + 1 =>
    let names := assignments.map fun a => String.ofList a.1
    match words with
    | [] =>
      let m := assignAll fuel assignments m
      unbroken m fun m =>
        let m := { m with status := m.substituted?.getD 0 }.traced
          (names.map fun n => n ++ "=" ++ (m.value? n).getD "")
        withRedirects fuel redirects m fun m => (.next, m)
    | "exec" :: args =>
      match applyAll fuel redirects m with
      | (false, m) => (.leave 2, m)
      | (true, m) =>
        match args with
        | [] => (.next, { m with status := 0 })
        | name :: rest =>
          match runProgram fuel true name rest ({ m with traps := [] }.traced words) with
          | (.next, m) => (.leave m.status, m)
          | other => other
    | name :: args =>
      let ready := assignAll fuel assignments m
      unbroken ready fun ready =>
        let ready := ready.traced ((names.map fun n => n ++ "=" ++ (ready.value? n).getD "") ++ words)
        let special := specialBuiltins.contains name
        match applyAll fuel redirects ready with
        | (false, after) =>
          (if special then .leave 2 else .next, { after.withDescriptors m with status := 2 })
        | (true, ready) =>
          let (flow, after) := runNamed fuel name args ready
          let after := if special then after else Machine.restore names m after
          let input := if redirects.any (·.descriptor == 0) then m.input else after.input
          (flow, { after with sinks := m.sinks, input := input })

/-- Runs a loop for as long as its condition comes out as wanted. -/
def runLoop (fuel : Nat) (wanted : Bool) (condition body : Command) (status : Nat) (m : Machine) :
    Flow × Machine :=
  match fuel with
  | 0 => (.stuck, m)
  | fuel + 1 =>
    match runGuarded fuel condition m with
    | (.next, m) =>
      if (m.status == 0) != wanted then (.next, { m with status := status })
      else
        match run fuel body m with
        | (.next, m) => runLoop fuel wanted condition body m.status m
        | (.goOn n, m) =>
          if n ≤ 1 then runLoop fuel wanted condition body 0 m else (.goOn (n - 1), m)
        | (flow, m) => afterLevel flow m
    | (flow, m) => afterLevel flow m

def runEach (fuel : Nat) (name : String) (values : List String) (body : Command) (m : Machine) :
    Flow × Machine :=
  match fuel with
  | 0 => (.stuck, m)
  | fuel + 1 =>
    match values with
    | [] => (.next, m)
    | v :: rest =>
      match run fuel body (m.assign name v) with
      | (.next, m) => runEach fuel name rest body m
      | (.goOn n, m) => if n ≤ 1 then runEach fuel name rest body m else (.goOn (n - 1), m)
      | (flow, m) => afterLevel flow m

/-- Runs the first arm with a pattern that a text matches. -/
def runArms (fuel : Nat) (subject : String) (arms : List (List Word × Command)) (m : Machine) :
    Flow × Machine :=
  match fuel with
  | 0 => (.stuck, m)
  | fuel + 1 =>
    match arms with
    | [] => (.next, { m with status := 0 })
    | ([], _) :: rest => runArms fuel subject rest m
    | (pattern :: patterns, body) :: rest =>
      let (fields, m) := expandParts fuel (pattern.map asQuoted) .empty m
      unbroken m fun m =>
        if matchesPattern fields.text.toList subject.toList then run fuel body { m with status := 0 }
        else runArms fuel subject ((patterns, body) :: rest) m

def runNamed (fuel : Nat) (name : String) (args : List String) (m : Machine) : Flow × Machine :=
  match fuel with
  | 0 => (.stuck, m)
  | fuel + 1 =>
    match m.functions.lookup name with
    | some body =>
      let (flow, after) := run fuel body { m with parameters := args, loops := 0 }
      let after := { after with parameters := m.parameters, loops := m.loops }
      match flow with
      | .goBack n => (.next, { after with status := n })
      | flow => (flow, after)
    | none =>
      match name, args with
      | "eval", args => runSource fuel 1 (String.intercalate " " args) { m with status := 0 }
      | "command", [] => (.next, { m with status := 0 })
      | "command", "-v" :: name :: _ =>
        match whereabouts name m with
        | some place => (.next, m.say "command" (Utf8.encode (place ++ "\n")))
        | none => (.next, { m with status := 127 })
      | "command", name :: args =>
        let (flow, after) := runNamed fuel name args { m with functions := [] }
        (flow, { after with functions := m.functions })
      | "kill", args => runKill fuel args m
      | name, args =>
        match runBuiltin name args m with
        | some result => result
        | none => runProgram fuel false name args m

/-- Runs a program, perhaps in place of the script itself. -/
def runProgram (fuel : Nat) (replacing : Bool) (name : String) (args : List String) (m : Machine) :
    Flow × Machine :=
  match fuel with
  | 0 => (.stuck, m)
  | fuel + 1 =>
    let file := if name.startsWith "/" then (name.splitOn "/").getLastD name else name
    if file = "sh" then
      let (flow, after) := runShell fuel name args m
      if replacing then (flow, after) else flow.closeProgram m after
    else
      match runUtility file name args m with
      | some result => result
      | none =>
        let role := if replacing then "exec: " else ""
        let missing := m.complain (role ++ name ++ ": not found") 127
        let denied := m.complain (role ++ name ++ ": Permission denied") 126
        if name.contains '/' then
          match m.files.content (.ofText name) with
          | .error e => (.next, if e == .isDirectory then denied else missing)
          | .ok _ => (.next, denied)
        else (.next, missing)

/-- Sends a signal to the script itself, where it is ignored, does what its trap tells, or ends the
script, or to what runs in the background. -/
def runKill (fuel : Nat) (args : List String) (m : Machine) : Flow × Machine :=
  match fuel with
  | 0 => (.stuck, m)
  | fuel + 1 =>
    let (name, targets) := match args with
      | "-s" :: name :: rest => (name, rest)
      | a :: rest => if a.startsWith "-" then ((a.drop 1).toString, rest) else ("TERM", args)
      | [] => ("TERM", [])
    match signal? name, targets with
    | none, _ => (.next, m.complain ("kill: invalid signal number or name: " ++ name) 2)
    | some _, [] =>
      (.next, m.complain ("kill: Usage: kill [-s sigspec | -signum | -sigspec] [pid | job]... or\n"
        ++ "kill -l [exitstatus]") 2)
    | some signal, target :: _ =>
      if target = Machine.self then
        if signal = 0 then (.next, { m with status := 0 })
        else
          let action? := if signal = 9 ∨ signal = 19 then none
            else m.traps.lookup (signalName (toString signal))
          match action?, reaction signal with
          | some action, _ => runSource fuel 1 action { m with status := 0 }
          | none, .ignores => (.next, { m with status := 0 })
          | none, .stops => (.stuck, m)
          | none, .ends => (.killed signal, m)
      else if m.job?.any fun j => toString j.number == target then
        (.next, { (if signal = 0 then m else m.endJobs (128 + signal)) with status := 0 })
      else if (numberArgument? target).isSome then (.next, m.complain "kill: No such process" 1)
      else (.next, m.complain ("kill: Illegal number: " ++ target) 2)

/-- Runs a text as a part of the script. -/
def runSource (fuel line : Nat) (source : String) (m : Machine) : Flow × Machine :=
  match fuel with
  | 0 => (.stuck, m)
  | fuel + 1 =>
    let script := read line source.toList
    runLines fuel script.lines script.fault? m

/-- Runs the lines of a script, and tells what is wrong after them. -/
def runLines (fuel : Nat) (lines : List Command) (fault? : Option (String × Nat)) (m : Machine) :
    Flow × Machine :=
  match fuel with
  | 0 => (.stuck, m)
  | fuel + 1 =>
    match lines, fault? with
    | [], none => (.next, m)
    | [], some (message, line) => (.leave 2, { m with line := line }.complain message 2)
    | c :: rest, fault? =>
      match run fuel c m with
      | (.next, m) => runLines fuel rest fault? m
      | other => other

/-- Runs a whole script, and at its end the trap for that. -/
def runScript (fuel : Nat) (source : String) (m : Machine) : Flow × Machine :=
  match fuel with
  | 0 => (.stuck, m)
  | fuel + 1 =>
    match runSource fuel 1 source m with
    | (.killed n, m) => (.killed n, m)
    | (.stuck, m) => (.stuck, m)
    | (flow, m) =>
      let status := match flow with
        | .leave n => n
        | .goBack n => n
        | _ => m.status
      match m.traps.lookup "EXIT" with
      | none => (.leave status, m)
      | some action =>
        match runSource fuel 1 action { m with status := status, traps := [] } with
        | (.leave n, m) => (.leave n, m)
        | (.next, m) => (.leave status, m)
        | other => other

/-- Runs a shell that was called by the name `self`. -/
def runShell (fuel : Nat) (self : String) (args : List String) (m : Machine) : Flow × Machine :=
  match fuel with
  | 0 => (.stuck, m)
  | fuel + 1 =>
    let refuse (message : String) : Flow × Machine :=
      (.leave 2, m.writeError (self ++ ": 0: " ++ message ++ "\n"))
    match shellCall self args with
    | .error message => refuse message
    | .ok call =>
      match call.origin.source m with
      | .error message => refuse message
      | .ok source => runScript fuel source (m.fresh call.name call.options call.parameters)

def expandAll (fuel : Nat) (words : List Word) (m : Machine) : List String × Machine :=
  match fuel with
  | 0 => ([], m)
  | fuel + 1 =>
    match words with
    | [] => ([], m)
    | w :: rest =>
      let (fields, m) := expandParts fuel w .empty m
      if m.broken then ([], m)
      else
        let (more, m) := expandAll fuel rest m
        (fields.toList ++ more, m)

def expandParts (fuel : Nat) (parts : Word) (fields : Fields) (m : Machine) : Fields × Machine :=
  match fuel with
  | 0 => (fields, m)
  | fuel + 1 =>
    if m.broken then (fields, m)
    else
      match parts with
      | [] => (fields, m)
      | .text cs _ :: rest =>
        -- The empty text that opens a quoted part makes a field, unless it holds no parameters at all.
        match cs, rest with
        | [], .parameter ['@'] true :: _ =>
          if m.parameters.isEmpty then expandParts fuel rest fields m
          else expandParts fuel rest (fields.add "") m
        | cs, rest => expandParts fuel rest (fields.add (String.ofList cs)) m
      | .parameter ['@'] true :: rest => expandParts fuel rest (fields.addEach m.parameters) m
      | .parameter e quoted :: rest =>
        let (value, m) := expandParameter fuel e m
        expandParts fuel rest (fields.addValue quoted value) m
      | .arithmetic source quoted :: rest =>
        let (source, m) := expandSource fuel source m
        match Arithmetic.eval (fun n => (m.value? n).getD "") source with
        | .ok n => expandParts fuel rest (fields.addValue quoted (toString n)) m
        | .error fault => (fields, { m.complain (fault.message source) 2 with broken := true })
      | .output source quoted :: rest =>
        let n := m.pipes
        let (flow, after) := runSource fuel m.line (String.ofList source)
          ({ m with pipes := n + 1 }.pointTo 1 (.pipe n))
        let (_, after) := flow.closeSubshell m after
        let value := withoutLineEnds (after.received n)
        expandParts fuel rest (fields.addValue quoted value)
          { after with status := m.status, substituted? := some after.status }

/-- The value of a parameter with what is asked of it between braces. -/
def expandParameter (fuel : Nat) (e : List Char) (m : Machine) : String × Machine :=
  match fuel with
  | 0 => ("", m)
  | fuel + 1 =>
    let unset (name : List Char) : String × Machine :=
      ("", { m.complain (String.ofList name ++ ": parameter not set") 2 with broken := true })
    match e with
    | '#' :: c :: rest =>
      match m.parameter? (c :: rest) with
      | some value => (toString value.length, m)
      | none => if m.options.contains 'u' then unset (c :: rest) else ("0", m)
    | e =>
      let name := e.takeWhile isNameChar
      let name := if name.isEmpty then e.take 1 else name
      match adjustment? (e.drop name.length) with
      | none => ("", { m.complain "Bad substitution" 2 with broken := true })
      | some (adjustment, w) =>
        let value? := m.parameter? name
        let value := value?.getD ""
        let absent (orEmpty : Bool) : Bool := if orEmpty then value.isEmpty else value?.isNone
        let word (m : Machine) : String × Machine :=
          let (cs, m) := expandSource fuel w m
          (String.ofList cs, m)
        match adjustment with
        | .none =>
          if value?.isNone && m.options.contains 'u' && name != ['@'] && name != ['*'] then unset name
          else (value, m)
        | .instead orEmpty => if absent orEmpty then word m else (value, m)
        | .setting orEmpty =>
          if absent orEmpty then
            let (text, m) := word m
            (text, m.assign (String.ofList name) text)
          else (value, m)
        | .wanting orEmpty =>
          if absent orEmpty then
            let (text, m) := word m
            let text := if !text.isEmpty then text
              else "parameter not set" ++ if orEmpty then " or null" else ""
            ("", { m.complain (String.ofList name ++ ": " ++ text) 2 with broken := true })
          else (value, m)
        | .when orEmpty => if absent orEmpty then ("", m) else word m
        | .withoutStart longest =>
          let (pattern, m) := word m
          (String.ofList (withoutStart longest pattern.toList value.toList), m)
        | .withoutEnd longest =>
          let (pattern, m) := word m
          (String.ofList (withoutEnd longest pattern.toList value.toList), m)

/-- Expands what stands in a text as it would between double quotes. -/
def expandSource (fuel : Nat) (source : List Char) (m : Machine) : List Char × Machine :=
  match fuel with
  | 0 => (source, m)
  | fuel + 1 =>
    match betweenQuotes (source.length + 2) (source ++ ['"']) with
    | .ok (parts, _) =>
      let (fields, m) := expandParts fuel parts .empty m
      (fields.text.toList, m)
    | .error _ => (source, m)

def assignAll (fuel : Nat) (assignments : List (List Char × Word)) (m : Machine) : Machine :=
  match fuel with
  | 0 => m
  | fuel + 1 =>
    match assignments with
    | [] => m
    | (name, value) :: rest =>
      let (fields, m) := expandParts fuel (value.map asQuoted) .empty m
      if m.broken then m else assignAll fuel rest (m.assign (String.ofList name) fields.text)

def applyAll (fuel : Nat) (redirects : List Redirect) (m : Machine) : Bool × Machine :=
  match fuel with
  | 0 => (true, m)
  | fuel + 1 =>
    match redirects with
    | [] => (true, m)
    | r :: rest =>
      let failed (name : String) (verb : String) (e : IoFault) (m : Machine) : Bool × Machine :=
        let reason := if e == .missing then
            (if verb = "create" then "Directory nonexistent" else "No such file")
          else Utility.faultText e
        (false, m.complain ("cannot " ++ verb ++ " " ++ name ++ ": " ++ reason) 2)
      let toFile (w : Word) (keep : Bool) : Bool × Machine :=
        let (fields, m) := expandParts fuel w .empty m
        match sinkNamed? fields.text m with
        | some sink => applyAll fuel rest (m.pointTo r.descriptor sink)
        | none =>
          match m.files.fileToWrite (.ofText fields.text) with
          | .error e => failed fields.text "create" e m
          | .ok a =>
            let files := if keep && (m.files.contentAt? a).isSome then m.files
              else m.files.put a (.file [])
            applyAll fuel rest ({ m with files := files }.pointTo r.descriptor (.file a))
      match r.direction with
      | .copy n =>
        if n = 0 then applyAll fuel rest m
        else if m.sinkOf n = .closed then (false, m.complain (toString n ++ ": Bad file descriptor") 2)
        else applyAll fuel rest (m.pointTo r.descriptor (m.sinkOf n))
      | .close =>
        applyAll fuel rest
          (if r.descriptor = 0 then { m with input := .empty } else m.pointTo r.descriptor .closed)
      | .output w => toFile w false
      | .append w => toFile w true
      | .input w =>
        let (fields, m) := expandParts fuel w .empty m
        match openStream m fields.text with
        | .error e => failed fields.text "open" e m
        | .ok s => applyAll fuel rest { m with input := s }

end

/-! ## The whole program -/

/-- The depth to which a script is followed before it counts as running for ever. -/
def depth : Nat := 100000

/-- How long it takes to start a program. -/
def startUp : Duration := .ofMillis 1

/-- What a machine has done in the end, seen from outside. -/
def Machine.behaviour (flow : Flow) (m : Machine) : Behaviour :=
  let status : ExitStatus := match flow with
    | .leave n => .code n
    | .killed _ => .signal
    | _ => .code m.status
  let after? (n : Nat) : Option Duration :=
    if flow == .stuck then none else some ⟨startUp.nanos + n⟩
  { status := status, exitAt? := after? m.clock, closeAt? := after? (max m.clock m.held)
    output := m.received 0 }

/-- What a program does when it is called by the name `self` with some arguments, and the files that it
leaves. -/
def outcome (files : FileTree) (program self : String) (args : List String) : Behaviour × FileTree :=
  let m := Machine.start self files
  let (flow, m) :=
    if program = "sh" then runShell depth self args m
    else (runUtility program self args m).getD (.leave 0, m)
  (m.behaviour flow, m.files)

end PowerBench.Child.Shell
