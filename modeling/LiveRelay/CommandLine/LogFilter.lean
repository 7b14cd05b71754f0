import LiveRelay.Event.Record

/-! # Which records are shown

A log filter is a list of directives, `target=level` or one of the two alone, separated by
commas. Of the directives whose target starts the target of a record the longest decides.
-/

namespace LiveRelay

/-- Shows the records of a part of the program up to a level. -/
structure LogDirective where
  /-- The beginning of the targets that are meant; none means all. -/
  target : Option String
  level : LogLevel
  deriving DecidableEq

/-- The directives by which records are shown. -/
structure LogFilter where
  directives : List LogDirective
  deriving DecidableEq

namespace LogFilter

/-- Shows all records up to a level. -/
def ofLevel (level : LogLevel) : LogFilter := ⟨[⟨none, level⟩]⟩

/-- A level by its name, in any case, or by its number. -/
def level? (text : String) : Option LogLevel :=
  let levels : List LogLevel := [.off, .error, .warn, .info, .debug, .trace]
  levels.find? fun level =>
    level.name = text.map Char.toLower ∨ toString level.number = text

/-- Whether a character may stand in a target. -/
def isTargetChar (c : Char) : Bool :=
  c.isAlphanum || c == '_' || c == ':' || c == '-' || 128 ≤ c.toNat

/-- A target or a span in brackets, and what follows it. -/
def part? : List Char → Option (Option String × List Char)
  | '[' :: text =>
      match text.dropWhile (· ≠ ']') with
      | ']' :: rest => some (none, rest)
      | _ => none
  | text =>
      match text.takeWhile isTargetChar with
      | [] => none
      | target => some (some (String.ofList target), text.dropWhile isTargetChar)

/-- The end of a directive: nothing, or a level behind an equals sign. A level that is left
out is the widest. -/
def levelAfter? : List Char → Option LogLevel
  | [] => some .trace
  | ['='] => some .trace
  | '=' :: text => level? (String.ofList text)
  | _ => none

/-- Reads one directive. One for a span says nothing about the records of this program,
which are in no span. -/
def directive? (text : String) : Option (Option LogDirective) :=
  match level? text with
  | some level => some (some ⟨none, level⟩)
  | none => do
      let (first, rest) ← part? text.toList
      let (second, rest) := (part? rest).getD (none, rest)
      let level ← levelAfter? rest
      if text.contains '[' then return none
      else return some ⟨second.or first, level⟩

/-- Reads a filter. Without any directive only errors are shown. -/
def ofText? (text : String) : Option LogFilter := do
  let directives ← ((text.splitOn ",").filter (!·.isEmpty)).mapM directive?
  if directives.isEmpty then return ofLevel .error
  else return ⟨directives.filterMap id⟩

/-- Whether a directive speaks of a target. -/
def covers (target : String) (directive : LogDirective) : Bool :=
  directive.target.all fun lead => lead.toList.isPrefixOf target.toList

/-- The length of the target that a directive names. -/
def weight (directive : LogDirective) : Nat := (directive.target.map String.length).getD 0

/-- The directive that decides on a target: the longest, and the last of equal ones. -/
def directiveFor? (filter : LogFilter) (target : String) : Option LogDirective :=
  let longer (best : Option LogDirective) (directive : LogDirective) : Option LogDirective :=
    match best with
    | some other => if weight directive < weight other then best else some directive
    | none => some directive
  (filter.directives.filter (covers target)).foldl longer none

/-- Whether a record is shown. -/
def shows (filter : LogFilter) (record : LogRecord) : Bool :=
  (filter.directiveFor? record.source.target).any fun directive =>
    record.level.number ≤ directive.level.number

end LogFilter

/-- The line that shows a record. -/
def LogRecord.line (record : LogRecord) : String :=
  let fields := record.fields.map fun (name, text) => s!" {name}={text}"
  record.level.name.map Char.toUpper ++ " " ++ record.message ++ String.join fields

end LiveRelay
