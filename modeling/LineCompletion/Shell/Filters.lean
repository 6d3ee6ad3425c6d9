import LineCompletion.Shell.Usage

/-!
# Filters

The programs that read lines and print them cut, sorted or counted.
-/

namespace LineCompletion.Shell

namespace Utility

def cat : Action := fun s arguments =>
  withUsage "cat" ['n', 'u', 'A', 'E', 's', 'v'] [] s arguments fun u =>
    filter "cat" plainly 1 s u.operands fun text =>
      if u.has 'n' then
        ((Octets.lines text).zipIdx 1).flatMap fun l =>
          let n := Octets.ofNat l.2
          List.replicate (6 - n.length) ' ' ++ n ++ '\t' :: l.1
      else text

/-- A number of lines or octets, and whether it counts from the other end. -/
def counted (marks : List Char) (text : Octets) : Option (Nat × Bool) :=
  match text with
  | c :: rest =>
    if marks.contains c then (Octets.digits? rest).map fun n => (n, true)
    else (Octets.digits? text).map fun n => (n, false)
  | [] => none

/-- Arguments in which a dash with digits stands for a number of lines. -/
def spellCount (arguments : List Octets) : List Octets :=
  arguments.flatMap fun a =>
    match a with
    | '-' :: digits => if (Octets.digits? digits).isSome then [['-', 'n'], digits] else [a]
    | _ => [a]

/-- Prints the first or last parts of files. -/
def part (program : String) (marks : List Char)
    (choose : List Octets → Nat × Bool → List Octets) : Action := fun s arguments =>
  withUsage program ['q'] ['n', 'c'] s (spellCount arguments) fun u =>
    let given := (u.value? 'c').orElse fun _ => u.value? 'n'
    match counted marks (given.getD ['1', '0']) with
    | none =>
      fail s program ("invalid number of lines: '".toList ++ given.getD [] ++ ['\'']) 1
    | some n =>
      let (found, s) := inputs program forReading 1 s u.operands
      let units (text : Octets) : List Octets :=
        if u.has 'c' then text.map fun c => [c] else Octets.lines text
      let bodies := found.map fun f =>
        let title := if 1 < u.operands.length && !u.has 'q' then
            "==> ".toList ++ f.1 ++ " <==\n".toList
          else []
        title ++ (choose (units f.2) n).flatten
      s.out ((if 1 < u.operands.length && !u.has 'q' then ['\n'] else []).intercalate bodies)

/-- Prints the first lines of files. -/
def head : Action :=
  part "head" ['-'] fun units n => if n.2 then units.take (units.length - n.1) else units.take n.1

/-- Prints the last lines of files. -/
def tail : Action :=
  part "tail" ['+'] fun units n =>
    if n.2 then units.drop (n.1 - 1) else units.drop (units.length - n.1)

def leadingNumber (line : Octets) : Int :=
  let line := Expression.skipBlanks line
  let (negative, digits) := match line with
    | '-' :: rest => (true, rest)
    | rest => (false, rest)
  let n : Int := ((Octets.digits? (digits.takeWhile Char.isDigit)).getD 0 : Nat)
  if negative then -n else n

def fields (separator : Char) : Octets → List Octets
  | [] => [[]]
  | c :: rest =>
    if c == separator then [] :: fields separator rest
    else match fields separator rest with
      | [] => [[c]]
      | field :: more => (c :: field) :: more

/-- Drops lines that equal the line before them. -/
def squeeze {α : Type} (same : α → α → Bool) : List α → List α
  | [] => []
  | [a] => [a]
  | a :: b :: rest =>
    let more := squeeze same (b :: rest)
    if same a b then a :: more.tail else a :: more

/-- Prints lines in order. -/
def sort : Action := fun s arguments =>
  withUsage "sort" ['r', 'n', 'u', 'f', 's', 'b'] ['k', 't'] s arguments fun u =>
    let complaint : Complaint := fun path e =>
      (if e == .isDirectory then "read failed: ".toList else "cannot read: ".toList)
        ++ plainly path e
    let (found, s) := inputs "sort" complaint 2 s u.operands
    if s.status != 0 then s
    else
      let lines := found.flatMap fun f => bareLines f.2
      let fold (l : Octets) : Octets := if u.has 'f' then l.map Char.toUpper else l
      let field := (u.value? 'k').bind fun k => Octets.digits? (k.takeWhile Char.isDigit)
      let key (l : Octets) : Octets := match field with
        | none => fold l
        | some n =>
          match (u.value? 't').bind List.head? with
          | some t => fold ([t].intercalate ((fields t l).drop (n - 1)))
          | none =>
            let words := ((fields ' ' l).filter fun w => !w.isEmpty)
            fold ([' '].intercalate (words.drop (n - 1)))
      let inTie (a b : Octets) : Bool :=
        u.has 'u' || u.has 's' || (if u.has 'r' then Octets.atMost b a else Octets.atMost a b)
      let keyBefore (a b : Octets) : Bool :=
        if u.has 'n' then
          decide (leadingNumber (key a) < leadingNumber (key b))
            || (leadingNumber (key a) == leadingNumber (key b) && inTie a b)
        else Octets.precedes (key a) (key b) || (key a == key b && inTie a b)
      let before (a b : Octets) : Bool :=
        if u.has 'r' then
          if keyBefore a b && keyBefore b a then true else keyBefore b a
        else keyBefore a b
      let sorted := lines.mergeSort before
      let same (a b : Octets) : Bool :=
        if u.has 'n' then leadingNumber (key a) == leadingNumber (key b) else key a == key b
      s.out (unlines (if u.has 'u' then squeeze same sorted else sorted))

/-- Lines next to each other with how often each stands there. -/
def runs : List Octets → List (Octets × Nat)
  | [] => []
  | l :: rest =>
    match runs rest with
    | (m, n) :: more => if l == m then (m, n + 1) :: more else (l, 1) :: (m, n) :: more
    | [] => [(l, 1)]

/-- Prints lines that stand next to each other once. -/
def uniq : Action := fun s arguments =>
  withUsage "uniq" ['c', 'd', 'u'] [] s arguments fun u =>
    filter "uniq" plainly 1 s (u.operands.take 1) fun text =>
      let kept := (runs (bareLines text)).filter fun r =>
        (!u.has 'd' || 1 < r.2) && (!u.has 'u' || r.2 == 1)
      unlines (kept.map fun r =>
        if u.has 'c' then
          let n := Octets.ofNat r.2
          List.replicate (7 - n.length) ' ' ++ n ++ ' ' :: r.1
        else r.1)

def wordCount (text : Octets) : Nat :=
  (text.foldl (fun (acc : Nat × Bool) c =>
    let blank := c == ' ' || ('\t' ≤ c && c ≤ '\r')
    if blank then (acc.1, false) else if acc.2 then acc else (acc.1 + 1, true)) (0, false)).1

/-- Counts lines, words and octets. -/
def wc : Action := fun s arguments =>
  withUsage "wc" ['l', 'w', 'c', 'm'] [] s arguments fun u =>
    let (found, s) := inputs "wc" plainly 1 s u.operands
    let all := !(u.has 'l' || u.has 'w' || u.has 'c' || u.has 'm')
    let counts (text : Octets) : List Nat :=
      (if all || u.has 'l' then [Octets.newlines text] else [])
        ++ (if all || u.has 'w' then [wordCount text] else [])
        ++ (if all || u.has 'c' || u.has 'm' then [text.length] else [])
    let rows := found.map fun f => (counts f.2, if u.operands.isEmpty then [] else f.1)
    let total := (counts (found.flatMap (·.2)), "total".toList)
    let rows := if 1 < u.operands.length then rows ++ [total] else rows
    let widest := (Octets.ofNat (found.flatMap (·.2)).length).length
    let single := (counts []).length == 1
    let width := if u.operands.isEmpty then if single then 1 else 7
      else if single && rows.length == 1 then 1 else widest
    let line (r : List Nat × Octets) : Octets :=
      let cells := r.1.map fun n =>
        let d := Octets.ofNat n
        List.replicate (width - d.length) ' ' ++ d
      [' '].intercalate (cells ++ if r.2.isEmpty then [] else [r.2])
    s.out (unlines (rows.map line))

/-- The octets of a set with its ranges and classes written out. -/
def octetSet : Nat → Octets → Octets
  | 0, _ => []
  | fuel + 1, text =>
    match text with
    | '[' :: ':' :: rest =>
      let name := rest.takeWhile (· != ':')
      let inClass := (classRanges (String.ofList name)).flatMap fun r =>
        (List.range (r.2.toNat - r.1.toNat + 1)).map fun i => octetOf (r.1.toNat + i)
      inClass ++ octetSet fuel (rest.drop (name.length + 2))
    | '\\' :: rest =>
      let (c, rest) := escape rest
      c :: octetSet fuel rest
    | a :: '-' :: b :: rest =>
      (List.range (b.toNat + 1 - a.toNat)).map (fun i => octetOf (a.toNat + i))
        ++ octetSet fuel rest
    | c :: rest => c :: octetSet fuel rest
    | [] => []

def tr : Action := fun s arguments =>
  withUsage "tr" ['d', 's', 'c'] [] s arguments fun u =>
    let set (i : Nat) : Octets := (u.operands[i]?.map fun t => octetSet (t.length + 1) t).getD []
    let chosen (c : Char) : Bool := (set 0).contains c != u.has 'c'
    let (text, s) := s.readAll 0
    let last := (set 1).getLast?.getD ' '
    let replaced (c : Char) : Char :=
      if !chosen c then c
      else if u.has 'c' then last
      else ((set 1)[(set 0).idxOf c]?).getD last
    let text := if u.has 'd' then text.filter fun c => !chosen c
      else if u.operands.length < 2 then text
      else text.map replaced
    let squeezed := if u.operands.length < 2 then chosen else (set 1).contains
    let text := if u.has 's' then squeeze (fun a b => a == b && squeezed a) text else text
    (s.out text).withStatus 0

def inRanges (ranges : Octets) (n : Nat) : Bool :=
  (fields ',' ranges).any fun r =>
    match fields '-' r with
    | [a] => Octets.digits? a == some n
    | [a, b] => decide ((Octets.digits? a).getD 1 ≤ n)
        && (b.isEmpty || decide (n ≤ (Octets.digits? b).getD 0))
    | _ => false

/-- Prints some fields or octets of each line. -/
def cut : Action := fun s arguments =>
  withUsage "cut" ['s'] ['d', 'f', 'c', 'b'] s arguments fun u =>
    let separator := ((u.value? 'd').bind List.head?).getD '\t'
    let pick {α : Type} (ranges : Octets) (xs : List α) : List α :=
      ((xs.zipIdx 1).filter fun x => inRanges ranges x.2).map (·.1)
    let line (l : Octets) : List Octets :=
      match u.value? 'f', (u.value? 'c').orElse fun _ => u.value? 'b' with
      | some ranges, _ =>
        if l.contains separator then [[separator].intercalate (pick ranges (fields separator l))]
        else if u.has 's' then [] else [l]
      | none, some ranges => [pick ranges l]
      | none, none => []
    if (u.value? 'f').isNone && (u.value? 'c').isNone && (u.value? 'b').isNone then
      let s := s.complain
        "cut: you must specify a list of bytes, characters, or fields".toList
      fail s "Try '" "cut --help' for more information.".toList 1
    else filter "cut" plainly 1 s u.operands fun text => unlines ((bareLines text).flatMap line)

/-- Prints lines last first. -/
def tac : Action := fun s arguments =>
  let complaint : Complaint := fun path e => match e with
    | .isDirectory => path ++ ": read error: ".toList ++ fileErrorText e
    | _ => "failed to open '".toList ++ path ++ "' for reading: ".toList ++ fileErrorText e
  let (found, s) := inputs "tac" complaint 1 s arguments
  s.out (found.flatMap fun f => (Octets.lines f.2).reverse.flatten)

def rev : Action := fun s arguments =>
  filter "rev" forReading 1 s arguments fun text =>
    (Octets.lines text).flatMap fun l =>
      (Octets.chomp l).reverse ++ if l.getLast? == some '\n' then ['\n'] else []

/-- Copies the input to files too. -/
def tee : Action := fun s arguments =>
  let (text, s) := s.readAll 0
  let s := (s.withStatus 0).out text
  (arguments.filter fun a => a.head? != some '-').foldl (fun s path =>
    match s.files.write (Octets.toText path) (Octets.toBytes text) with
    | .ok files => { s with files }
    | .error e => fail s "tee" (plainly path e) 1) s

def contains (text : Octets) : Octets → Bool
  | [] => text.isEmpty
  | c :: rest => text.isPrefixOf (c :: rest) || contains text rest

/-- Prints lines that have a text in them. -/
def grep (always : Bool) : Action := fun s arguments =>
  withUsage "grep" ['F', 'v', 'i', 'c', 'n', 'q', 'x', 'E', 'h', 's', 'l'] ['e'] s arguments
    fun u =>
    let (pattern, paths) := match u.value? 'e' with
      | some p => (p, u.operands)
      | none => (u.operands.head?.getD [], u.operands.tail)
    let fold (l : Octets) : Octets := if u.has 'i' then l.map Char.toLower else l
    let fixed := always || u.has 'F'
    let atStart := !fixed && pattern.head? == some '^'
    let pattern := if atStart then pattern.tail else pattern
    let atEnd := !fixed && pattern.getLast? == some '$'
    let pattern := fold (if atEnd then pattern.dropLast else pattern)
    let hit (l : Octets) : Bool :=
      let l := fold l
      let found :=
        if u.has 'x' || (atStart && atEnd) then l == pattern
        else if atStart then pattern.isPrefixOf l
        else if atEnd then pattern.isSuffixOf l
        else contains pattern l
      found != u.has 'v'
    let (found, s) := inputs "grep" plainly 2 s paths
    let failed := s.status != 0
    let titled := 1 < paths.length && !u.has 'h'
    let hits := found.map fun f => (f.1, ((bareLines f.2).zipIdx 1).filter fun l => hit l.1)
    let title (path : Octets) : Octets := if titled then path ++ [':'] else []
    let body (h : Octets × List (Octets × Nat)) : Octets :=
      if u.has 'l' then if h.2.isEmpty then [] else h.1 ++ ['\n']
      else if u.has 'c' then title h.1 ++ Octets.ofNat h.2.length ++ ['\n']
      else h.2.flatMap fun l =>
        title h.1 ++ (if u.has 'n' then Octets.ofNat l.2 ++ [':'] else []) ++ l.1 ++ ['\n']
    let some_ := hits.any fun h => !h.2.isEmpty
    let s := if u.has 'q' then s else s.out (hits.flatMap body)
    s.withStatus (if u.has 'q' && some_ then 0 else if failed then 2 else if some_ then 0 else 1)

end Utility

end LineCompletion.Shell
