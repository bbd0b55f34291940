import PaneRelay.Shell.Builtin
import PaneRelay.Shell.Reader

/-! # Running scripts

A script becomes a behaviour. Every step is given what comes after it, so that a step may end the
script, read, or sleep in between. A number bounds the steps; a script that takes more of them does
nothing any more.

* `run`, `runAll`: commands.
* `atoms`, `fields`: words.
* `shell`: the program itself, with its arguments. -/

namespace PaneRelay.Shell

open PaneRelay.Child PaneRelay.Text

/-- How many steps a script may take. -/
def stepBound : Nat := 0x100000

/-- What a script does that has taken too many steps: nothing. -/
def exhausted : Behaviour := .sleeps (0x4000000000000) fun _ => .ends 1

/-! ## Reading a line -/

/-- Reads a line. A character is marked if it may split the line. The number bounds the length. -/
def readLine (raw : Bool) : Nat → List (Char × Bool) →
    (List (Char × Bool) → Bool → Behaviour) → Behaviour
  | 0, got, k => k got.reverse false
  | n + 1, got, k => .reads fun x =>
    match x with
    | none => k got.reverse false
    | some b =>
      let c := Char.ofNat b.toNat
      if c = '\n' then k got.reverse true
      else if c = '\\' && !raw then .reads fun y =>
        match y with
        | none => k got.reverse false
        | some d =>
          if d = 10 then readLine raw n got k
          else readLine raw n ((Char.ofNat d.toNat, false) :: got) k
      else readLine raw n ((c, true) :: got) k

/-- The variables that a line is shared out to. -/
def lineVars (s : Scope) (names : List (List Char)) (line : List (Char × Bool)) : Scope :=
  s.setAll (names.zip (share s.ifs names.length line ++ names.map fun _ => []))

/-- Reads a line into variables. -/
def reading (s : Scope) (args : List (List Char)) (k : Scope → Behaviour) : Behaviour :=
  let names := args.filter fun a => a.head? ≠ some '-'
  let raw := args.contains "-r".toList
  if names.isEmpty then s.complain "read: arg count".toList 2 k
  else if s.leads .input = some .input then
    readLine raw stepBound [] fun line complete =>
      k ((lineVars s names line).ended (statusOf complete))
  else k ((lineVars s names []).ended 1)

/-! ## Small steps -/

/-- The effect of a command that neither reads nor runs anything. -/
def effected (name : List Char) (e : Effect) (k : Scope → Behaviour) : Behaviour :=
  let finish (s : Scope) : Behaviour := k (s.ended e.status)
  let told : Scope → Behaviour := fun s => s.say .output e.out finish
  e.complaints.foldr (fun text (k : Scope → Behaviour) => fun s =>
    s.complain (name ++ ": ".toList ++ text) e.status k) told e.scope

/-- The status after a loop is left. -/
def afterLoop (n : Nat) : Flow := if n ≤ 1 then .on else .left (n - 1)

/-- A scope of its own for commands that change nothing outside. -/
def Scope.apart (s : Scope) : Scope := { s with atExit := [] }

/-- The arguments of a shell: its script, what it is called, and its arguments. -/
inductive Call where
  /-- A script is given. -/
  | script (text name : List Char) (args : List (List Char))
  /-- The script comes over the input. -/
  | input (args : List (List Char))
  /-- The script is in a file. -/
  | file (path : List Char)
  /-- The script is missing. -/
  | missing

/-- What a shell is asked to do, by its arguments. -/
def callOf (name : List Char) : Bool → List (List Char) → Call
  | true, [] => .missing
  | true, a :: args =>
    if a.length > 1 && (a.head? = some '-' || a.head? = some '+') then callOf name true args
    else
      match args with
      | [] => .script a name []
      | n :: args => .script a n args
  | false, [] => .input []
  | false, a :: args =>
    if a = ['-'] || a = "--".toList then
      match args with
      | [] => .input []
      | p :: _ => .file p
    else if a.head? = some '-' then
      if a.contains 'c' then callOf name true args
      else if a.contains 's' then .input args
      else callOf name false args
    else .file a

/-- The name of a program without its directory. -/
def baseName (s : List Char) : List Char := (s.reverse.takeWhile fun c => c ≠ '/').reverse

/-- Whether a path is one at which programs are found. -/
def isProgramPath (s : List Char) : Bool :=
  let dir := s.take (s.length - (baseName s).length)
  (dir.isEmpty || dir = "/bin/".toList || dir = "/usr/bin/".toList) &&
    toolNames.contains (String.ofList (baseName s))

/-! ## Words and commands -/

mutual

/-- What a part of a word becomes. -/
def partAtoms : Nat → Part → Scope → (Scope → List Atom → Behaviour) → Behaviour
  | 0, _, _, _ => exhausted
  | n + 1, p, s, k =>
    match p with
    | .text t quoted => k s (Atom.ofText t (if quoted then .quoted else .written))
    | .value name none quoted => k s (s.atomsOf name quoted)
    | .value name (some (op, w)) quoted =>
      let value := s.value? name
      let missing := value.isNone || (op.head? = some ':' && value = some [])
      let other (k : Scope → List Atom → Behaviour) : Behaviour :=
        atoms n w s fun s a => k s (a.map (if quoted then Atom.quotedOf else Atom.valueOf))
      match op.getLast? with
      | some '-' => if missing then other k else k s (s.atomsOf name quoted)
      | some '+' => if missing then k s [] else other k
      | some '=' =>
        if missing then other fun s a => k (s.set name (Atom.text a)) a
        else k s (s.atomsOf name quoted)
      | some '?' =>
        if missing then other fun s a =>
          let text := if a.isEmpty then "parameter not set".toList else Atom.text a
          s.complain (name ++ ": ".toList ++ text) 2 fun s => .ends s.status
        else k s (s.atomsOf name quoted)
      | c =>
        atoms n w s fun s a =>
          let without := if c = some '%' then Pattern.withoutEnd else Pattern.withoutFront
          k s (Atom.ofText (without (op.length = 2) (Pattern.ofAtoms a) (value.getD []))
            (if quoted then .quoted else .value))
    | .length name => k s (Atom.ofText (toString ((s.value? name).getD []).length).toList .value)
    | .sum e quoted =>
      atoms n e s fun s a =>
        match Sum.evaluate? s.vars (Atom.text a) with
        | some (x, vars) =>
          k { s with vars } (Atom.ofText (toString x).toList (if quoted then .quoted else .value))
        | none =>
          s.complain
            ("arithmetic expression: expecting primary: \"".toList ++ Atom.text a ++ ['"']) 2
            fun s => .ends s.status
    | .output body quoted =>
      let streams := (1, some .output) :: s.streams.filter fun e => e.1 ≠ 1
      let inner := runAll n body { s.apart with streams } fun s => finish n s
      inner.kept.capture ByteArray.empty fun got status =>
        let text := ((octetsOf got).reverse.dropWhile fun c => c = '\n').reverse.filter fun c =>
          c ≠ '\x00'
        k { s with status, captured := some status }
          (Atom.ofText text (if quoted then .quoted else .value))

/-- What a word becomes. -/
def atoms : Nat → Word → Scope → (Scope → List Atom → Behaviour) → Behaviour
  | 0, _, _, _ => exhausted
  | n + 1, ps, s, k =>
    match ps with
    | [] => k s []
    | p :: ps => partAtoms n p s fun s a => atoms n ps s fun s b => k s (a ++ b)

/-- The fields of words. -/
def fields : Nat → List Word → Scope → (Scope → List (List Char) → Behaviour) → Behaviour
  | 0, _, _, _ => exhausted
  | n + 1, ws, s, k =>
    match ws with
    | [] => k s []
    | w :: ws =>
      atoms n w s fun s a => fields n ws s fun s fs => k s (fieldsOf s.ifs a ++ fs)

/-- The values of settings. -/
def values : Nat → List (List Char × Word) → Scope →
    (Scope → List (List Char × List Char) → Behaviour) → Behaviour
  | 0, _, _, _ => exhausted
  | n + 1, l, s, k =>
    match l with
    | [] => k s []
    | (name, w) :: l =>
      atoms n w s fun s a => values n l s fun s vs => k s ((name, Atom.text a) :: vs)

/-- The end of a script, before which something may have to be run. -/
def finish : Nat → Scope → Behaviour
  | 0, _ => exhausted
  | n + 1, s =>
    match s.atExit with
    | [] => .ends s.status
    | text =>
      let status := s.status
      match read? text with
      | some cs => runAll n cs { s with atExit := [] } fun _ => .ends status
      | none => .ends status

/-- A script in a text. -/
def script : Nat → List Char → Scope → (Scope → Behaviour) → Behaviour
  | 0, _, _, _ => exhausted
  | n + 1, text, s, k =>
    match read? text with
    | some cs => runAll n cs s k
    | none => s.complain "Syntax error".toList 2 fun s => .ends s.status

/-- A script that comes over the input, line by line; `held` is what was read and is no script
yet. -/
def overInput : Nat → List Char → Scope → Behaviour
  | 0, _, _ => exhausted
  | n + 1, held, s =>
    if s.leads .input = some .input then
      readLine true stepBound [] fun line complete =>
        let text := held ++ line.map Prod.fst
        match read? text, complete with
        | some cs, true => runAll n cs s fun s => overInput n [] s
        | some cs, false => runAll n cs s fun s => finish n s
        | none, true => overInput n (text ++ ['\n']) s
        | none, false => script n text s fun s => finish n s
    else finish n s

/-- A shell with its arguments, which are asked for in a scope. -/
def called : Nat → List Char → List (List Char) → Scope → Behaviour
  | 0, _, _, _ => exhausted
  | n + 1, name, args, s =>
    match callOf name false args with
    | .script text name args => script n text { s with name, args } fun s => finish n s
    | .input args => overInput n [] { s with name, args }
    | .file path =>
      { s with name }.say .complaint
        (name ++ ": 0: cannot open ".toList ++ path ++ ": No such file\n".toList) fun _ => .ends 2
    | .missing =>
      { s with name }.say .complaint (name ++ ": 0: -c requires an argument\n".toList) fun _ =>
        .ends 2

/-- A program with its arguments. -/
def program : Nat → List Char → List (List Char) → Scope → (Nat → Behaviour) → Behaviour
  | 0, _, _, _, _ => exhausted
  | n + 1, path, args, s, k =>
    if isProgramPath path then
      match tool? (String.ofList (baseName path)) args with
      | some b => (b.rerouted s.leads).andThen k
      | none =>
        (called n path args { s with status := 0, atExit := [], flow := .on }).kept.andThen k
    else s.complain (path ++ ": not found".toList) 127 fun s => k s.status

/-- A command with its arguments and the settings that hold for it. -/
def invoke : Nat → List Char → List (List Char) → List (List Char × List Char) → Scope →
    (Scope → Behaviour) → Behaviour
  | 0, _, _, _, _, _ => exhausted
  | n + 1, name, args, settings, s, k =>
    let back (t : Scope) : Scope := t.restore (settings.map Prod.fst) s
    let inner := s.setAll settings
    match String.ofList name with
    | "exit" =>
      finish n (match args.head? with
        | some a => s.ended (Sum.ofDigits 10 (a.filter Char.isDigit) % 256)
        | none => s)
    | "exec" =>
      match args with
      | [] => k s
      | path :: args => inner.release fun _ => program n path args inner fun status => .ends status
    | "eval" => script n ([' '].intercalate args) inner k
    | "command" =>
      match args with
      | [] => k (s.ended 0)
      | name :: args => invoke n name args settings s k
    | "read" => reading inner args fun t =>
      k (back t |>.setAll (args.filterMap fun a => (t.vars.lookup a).map fun v => (a, v)))
    | "kill" =>
      if args.getLast? = some ['1'] then
        if args.head? = some "-0".toList then k (s.ended 0) else .ends 137
      else s.complain "kill: No such process".toList 1 k
    | text =>
      match s.functions.lookup name, builtin? text args inner with
      | some body, _ =>
        run n body { inner with args, depth := 0 } fun t =>
          k { back t with args := s.args, depth := s.depth, flow := .on }
      | none, some e => effected name { e with scope := back e.scope } k
      | none, none => program n name args inner fun status => k (s.ended status)

/-- The streams after redirections, one of which may fail. -/
def redirected : Nat → List Redirect → Scope → (fail : Scope → Behaviour) →
    (Scope → Behaviour) → Behaviour
  | 0, _, _, _, _ => exhausted
  | n + 1, rs, s, fail, k =>
    match rs with
    | [] => k s
    | .same fd w :: rs =>
      atoms n w s fun s a =>
        let others := s.streams.filter fun e => e.1 ≠ fd
        match Atom.text a with
        | ['-'] => redirected n rs { s with streams := others } fail k
        | ds =>
          match s.streams.lookup (Sum.ofDigits 10 ds) with
          | some t => redirected n rs { s with streams := (fd, t) :: others } fail k
          | none => s.complain (ds ++ ": Bad file descriptor".toList) 2 fail
    | .file fd w :: rs =>
      atoms n w s fun s a =>
        if fd = 0 && Atom.text a ≠ "/dev/null".toList then
          s.complain ("cannot open ".toList ++ Atom.text a ++ ": No such file".toList) 2 fail
        else
          redirected n rs
            { s with streams := (fd, none) :: s.streams.filter fun e => e.1 ≠ fd } fail k

/-- Commands that are repeated while others succeed, or until they do. -/
def repeated : Nat → Bool → List Command → List Command → Nat → Scope → (Scope → Behaviour) →
    Behaviour
  | 0, _, _, _, _, _, _ => exhausted
  | n + 1, till, test, body, last, s, k =>
    runAll n test s fun s =>
      match s.flow with
      | .on =>
        if (s.status = 0) = !till then
          runAll n body s fun s =>
            let again (s : Scope) : Behaviour :=
              .sleeps 0 fun _ => repeated n till test body s.status s k
            match s.flow with
            | .on => again s
            | .left m => k { s with flow := afterLoop m }
            | .again m =>
              if m ≤ 1 then again { s with flow := .on } else k { s with flow := .again (m - 1) }
            | .returned => k s
        else k (s.ended last)
      | .left m => k { s with flow := afterLoop m }
      | .again m => k { s with flow := if m ≤ 1 then .on else .again (m - 1) }
      | .returned => k s

/-- Commands that are repeated for each field. -/
def forEach : Nat → List Char → List (List Char) → List Command → Scope → (Scope → Behaviour) →
    Behaviour
  | 0, _, _, _, _, _ => exhausted
  | n + 1, name, fs, body, s, k =>
    match fs with
    | [] => k s
    | f :: fs =>
      runAll n body (s.set name f) fun s =>
        match s.flow with
        | .on => .sleeps 0 fun _ => forEach n name fs body s k
        | .left m => k { s with flow := afterLoop m }
        | .again m =>
          if m ≤ 1 then forEach n name fs body { s with flow := .on } k
          else k { s with flow := .again (m - 1) }
        | .returned => k s

/-- Whether a text fits one of some patterns. -/
def fitsOne : Nat → List Char → List Word → Scope → (Scope → Bool → Behaviour) → Behaviour
  | 0, _, _, _, _ => exhausted
  | n + 1, text, ps, s, k =>
    match ps with
    | [] => k s false
    | p :: ps =>
      atoms n p s fun s a =>
        if Pattern.fits (Pattern.ofAtoms a) text then k s true else fitsOne n text ps s k

/-- The commands of the first pattern that fits a text. -/
def chosen : Nat → List Char → List (List Word × List Command) → Scope →
    (Scope → Behaviour) → Behaviour
  | 0, _, _, _, _ => exhausted
  | n + 1, text, cases, s, k =>
    match cases with
    | [] => k (s.ended 0)
    | (ps, body) :: cases =>
      fitsOne n text ps s fun s yes =>
        if yes then runAll n body (s.ended 0) k else chosen n text cases s k

/-- What the stages of a pipeline do. -/
def stages : Nat → List Command → Scope → List Behaviour
  | 0, _, _ => [exhausted]
  | n + 1, cs, s =>
    match cs with
    | [] => []
    | c :: cs => (run n c s.apart fun s => finish n s).kept :: stages n cs s

/-- **A command.** -/
def run : Nat → Command → Scope → (Scope → Behaviour) → Behaviour
  | 0, _, _, _ => exhausted
  | n + 1, c, s, k =>
    match c with
    | .simple settings ws =>
      fields n ws { s with captured := none } fun s fs =>
        values n settings s fun s vs =>
          match fs with
          | [] => k ((s.setAll vs).ended (s.captured.getD 0))
          | name :: args => invoke n name args vs s k
    | .pipeline cs =>
      match stages n cs s with
      | [] => k s
      | b :: bs => (bs.foldl Behaviour.feeding b).andThen fun status => k (s.ended status)
    | .negated c => run n c s fun s => k (s.ended (statusOf (s.status ≠ 0)))
    | .both a b =>
      run n a s fun s => if s.flow = .on && s.status = 0 then run n b s k else k s
    | .either a b =>
      run n a s fun s => if s.flow = .on && s.status ≠ 0 then run n b s k else k s
    | .group body => runAll n body s k
    | .apart body =>
      (runAll n body s.apart fun s => finish n s).kept.andThen fun status => k (s.ended status)
    | .loop till test body =>
      repeated n till test body 0 { s with depth := s.depth + 1 } fun t =>
        k { t with depth := s.depth }
    | .branch test yes no =>
      runAll n test s fun s =>
        if s.flow ≠ .on then k s
        else if s.status = 0 then runAll n yes (s.ended 0) k
        else runAll n no (s.ended 0) k
    | .each name ws body =>
      fields n ws s fun s fs =>
        forEach n name fs body { s with status := 0, depth := s.depth + 1 } fun t =>
          k { t with depth := s.depth }
    | .define name body => k { s with functions := (name, body) :: s.functions, status := 0 }
    | .choose w cases => atoms n w s fun s a => chosen n (Atom.text a) cases s k
    | .redirected c rs =>
      redirected n rs s k fun t =>
        match c with
        | .simple [] [[.text ['e', 'x', 'e', 'c'] false]] => t.release fun _ => k (t.ended 0)
        | c => run n c t fun u => k { u with streams := s.streams }

/-- **Commands**, one after another. -/
def runAll : Nat → List Command → Scope → (Scope → Behaviour) → Behaviour
  | 0, _, _, _ => exhausted
  | n + 1, cs, s, k =>
    match cs with
    | [] => k s
    | c :: cs => run n c s fun s => if s.flow = .on then runAll n cs s k else k s

end

/-- **A shell** with its arguments, the variables it starts with, and its directory. -/
def shell (name : List Char) (args : List (List Char)) (vars : Vars) (dir : List Char)
    (screen : Bool) : Behaviour :=
  called stepBound name args { name, vars := vars.set "PWD".toList dir, dir, screen }

end PaneRelay.Shell
