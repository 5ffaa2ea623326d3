/-
**Log filters.**

A filter is a list of directives, separated by commas. A directive is a verbosity, a target, or a
target and a verbosity with an equals sign between them; a target alone asks for everything from
it. In brackets behind the target, a directive may name a span and a field; the program enters no
spans, so a directive with a span, or with a value for the field, never applies.

A directive starts with its target or with its bracket: blanks in front are no part of one, and a
sign starts none. Blanks behind belong to the target or to the verbosity in which they stand; only
behind a closing bracket they are passed over.

Of the directives that apply to a record the most specific one decides: the one with the longest
target, then the one with a field, then the one whose field comes last in order; of equal ones the
last.

* `LogFilter.ofText`: the filter that a text writes; directives that cannot be read are passed over,
  and without any directive only errors are let through;
* `LogFilter.admits`: does the filter let a record through?
-/

import BookingAccess.Log.Record
import BookingAccess.Text.Blank
import BookingAccess.Text.Numeral

namespace BookingAccess

/-- How much is written; a severity is written if it is as severe as that or more. -/
inductive Verbosity
  | off
  | error
  | warning
  | info
  | debug
  | trace
deriving DecidableEq

namespace Verbosity

def rank : Verbosity → Nat
  | .off => 0
  | .error => 1
  | .warning => 2
  | .info => 3
  | .debug => 4
  | .trace => 5

def all : List Verbosity := [.off, .error, .warning, .info, .debug, .trace]

def name : Verbosity → String
  | .off => "off"
  | .error => "error"
  | .warning => "warn"
  | .info => "info"
  | .debug => "debug"
  | .trace => "trace"

/-- The verbosity with this name, in any mixture of capitals, or with this rank. -/
def ofText? (text : String) : Option Verbosity :=
  match Text.readWord64? text with
  | some rank => all.find? (·.rank == rank)
  | none => all.find? fun verbosity => verbosity.name.toList == text.toList.map Char.toLower

def admits (verbosity : Verbosity) : Severity → Bool
  | .warning => Verbosity.warning.rank ≤ verbosity.rank
  | .info => Verbosity.info.rank ≤ verbosity.rank

end Verbosity

structure LogDirective where
  verbosity : Verbosity
  /-- What the target of a record has to start with. -/
  target : Option String := none
  /-- Fields that a record has to have. -/
  fields : List String := []
  /-- Does the directive ask for a span, or for values of fields? -/
  isDynamic : Bool := false
deriving DecidableEq

namespace LogDirective

/-- Can a directive start with this character? -/
def isStart (c : Char) : Bool := c.isAlphanum || c == '-' || c == ':' || c == '_' || c == '['

/-- The verbosity behind an equals sign; it may be left out. -/
def verbosityBehind? (chars : List Char) : Option Verbosity :=
  if chars.isEmpty then some .trace else Verbosity.ofText? (String.ofList chars)

/-- The verbosity behind a closing bracket: nothing but blanks, or an equals sign and a verbosity. -/
def verbosityBehindBracket? : List Char → Option Verbosity
  | '=' :: rest => verbosityBehind? rest
  | rest => if rest.all Text.isBlank then some .trace else none

/-- What stands behind an opening bracket: the name of a span, as far as the closing bracket or an
opening brace, and behind the brace a field, as far as the closing one. The result says whether that
is dynamic, which fields a record has to have, and what follows the closing bracket. -/
def bracketed? (chars : List Char) : Option (Bool × List String × List Char) :=
  let stops := fun c => c == ']' || c == '{'
  let span := chars.takeWhile (!stops ·)
  match chars.dropWhile (!stops ·) with
  | ']' :: behind => some (true, [], behind)
  | '{' :: rest =>
    match rest.takeWhile (· != '}'), rest.dropWhile (· != '}') with
    | [], _ => none
    | field, '}' :: ']' :: behind =>
      let hasValue := field.contains '='
      some (!span.isEmpty || hasValue, if hasValue then [] else [String.ofList field], behind)
    | _, _ => none
  | _ => none

/-- The directive behind its start. -/
def ofStart? (chars : List Char) : Option LogDirective := do
  let stops := fun c => c == '=' || c == '['
  let head := chars.takeWhile (!stops ·)
  let target := if head.isEmpty then none else some (String.ofList head)
  match chars.dropWhile (!stops ·) with
  | '=' :: behind => return { verbosity := ← verbosityBehind? behind, target }
  | '[' :: rest =>
    let (isDynamic, fields, behind) ← bracketed? rest
    return { verbosity := ← verbosityBehindBracket? behind, target, fields, isDynamic }
  | _ =>
    match Verbosity.ofText? (String.ofList head) with
    | some verbosity => return { verbosity }
    | none => return { verbosity := .trace, target }

def ofChars? (chars : List Char) : Option LogDirective :=
  if chars.head?.any isStart then ofStart? chars else none

def appliesTo (directive : LogDirective) (record : LogRecord) : Bool :=
  !directive.isDynamic &&
    directive.target.all (fun target => target.toList.isPrefixOf record.target.toList) &&
    directive.fields.all fun field =>
      field == "message" || record.fields.any fun (name, _) => name == field

/-- How long the target of a directive is; one without a target is less specific than any other. -/
def targetLength (directive : LogDirective) : Nat :=
  directive.target.elim 0 fun target => target.utf8ByteSize + 1

/-- Is the second directive at least as specific as the first? -/
def yieldsTo (first second : LogDirective) : Bool :=
  first.targetLength < second.targetLength ||
    (first.targetLength == second.targetLength &&
      (first.fields.length < second.fields.length ||
        (first.fields.length == second.fields.length && !(second.fields < first.fields))))

end LogDirective

structure LogFilter where
  directives : List LogDirective

namespace LogFilter

def ofText (text : String) : LogFilter :=
  match (text.splitOn ",").filterMap (LogDirective.ofChars? ·.toList) with
  | [] => ⟨[{ verbosity := .error }]⟩
  | directives => ⟨directives⟩

/-- The directive that decides about a record. -/
def deciding? (filter : LogFilter) (record : LogRecord) : Option LogDirective :=
  (filter.directives.filter (·.appliesTo record)).foldl
    (fun best directive =>
      match best with
      | some best => if best.yieldsTo directive then some directive else some best
      | none => some directive)
    none

def admits (filter : LogFilter) (record : LogRecord) : Bool :=
  (filter.deciding? record).any (·.verbosity.admits record.severity)

end LogFilter

end BookingAccess
