import ClusterSync.Decimal.Unsigned
import ClusterSync.Telemetry.Event
import ClusterSync.Telemetry.Pattern
import ClusterSync.Text.Alphanumeric
import ClusterSync.Text.Blank

/-!
# Directives of log filters

What a log filter says about some events: a level up to which they are written. Which events
these are is told by the part of the program that they come from, a span that they happen in, and a
field that they have. All of it may be left out:

    level      part      part=level      part[span]=level      part[span{field}]=level

**Blanks** at the ends of a directive are not looked at when it is taken apart, but its pieces are
cut at the same places out of the text that has them.
-/

namespace ClusterSync

open Text

/-- A field that events have, and the pattern of its value, if that matters. -/
structure FieldPattern where
  name : String
  value : Option String := none
  deriving DecidableEq, Repr

structure Directive where
  /-- What the origin of an event begins with. -/
  part : Option String := none
  /-- The name of a span in which an event happens. -/
  span : Option String := none
  field : Option FieldPattern := none
  /-- The level up to which events are written; none if they are not written at all. -/
  level : Option LogLevel := some .trace
  deriving DecidableEq, Repr

namespace Directive

/-! ## Reading -/

/-- Reads a level by its name or its number. -/
def level? (text : String) : Option (Option LogLevel) :=
  match Decimal.unsigned? Decimal.word64 text, lower text with
  | some 0, _ | _, "off" => some none
  | some 1, _ | _, "error" => some (some .error)
  | some 2, _ | _, "warn" => some (some .warn)
  | some 3, _ | _, "info" => some (some .info)
  | some 4, _ | _, "debug" => some (some .debug)
  | some 5, _ | _, "trace" => some (some .trace)
  | _, _ => none

/-- Reads a level that may be left out. -/
def levelOrAll? (text : List Char) : Option (Option LogLevel) :=
  if text = [] then some (some .trace) else level? (String.ofList text)

/-- Reads what is asked of a field: its name, and a pattern for its value after an equals sign. -/
def field? (text : List Char) : Option FieldPattern :=
  match splitAt '=' text with
  | [] | [[]] => none
  | [name] => some ⟨String.ofList name, none⟩
  | name :: value :: _ =>
    let value := String.ofList value
    if Pattern.isPattern value then some ⟨String.ofList name, some value⟩ else none

/-- A directive in the course of being read: its text, and the same without blanks around it. -/
structure Source where
  whole : List Char
  bare : List Char

namespace Source

/-- The piece between two places. -/
def cut (s : Source) (first last : Nat) : String :=
  String.ofList ((s.whole.drop first).take (last - first))

/-- The first place from `i` on at which one of some characters stands, or else the end. -/
def find (s : Source) (marks : List Char) (i : Nat) : Nat :=
  i + ((s.bare.drop i).takeWhile fun c => !marks.contains c).length

/-- Reads the end of a directive behind the brackets. -/
def behind? (s : Source) (d : Directive) (i : Nat) : Option Directive :=
  match s.bare.drop i with
  | [] => some d
  | '=' :: _ => (levelOrAll? (s.whole.drop (i + 1))).map fun level => { d with level }
  | _ => none

/-- Reads the rest of a directive from the inside of the brackets on. -/
def inside? (s : Source) (part : Option String) (i : Nat) : Option Directive :=
  let j := s.find [']', '\x7b'] i
  match s.bare.drop j with
  | ']' :: _ => s.behind? { part, span := s.cut i j } (j + 1)
  | '\x7b' :: _ =>
    let k := s.find ['\x7d'] (j + 1)
    match s.bare.drop k with
    | '\x7d' :: ']' :: _ =>
      let span := if i = j then none else some (s.cut i j)
      (field? (s.cut (j + 1) k).toList).bind fun field =>
        s.behind? { part, span, field := some field } (k + 2)
    | _ => none
  | _ => none

/-- Reads a directive. What stands alone is a level if it can be one, and else a part. -/
def directive? (s : Source) : Option Directive :=
  match s.bare with
  | [] => none
  | '[' :: _ => s.inside? none 1
  | c :: _ =>
    if ¬ (isAlphanumeric c ∨ c = '-' ∨ c = ':' ∨ c = '_') then none
    else
      let i := s.find ['=', '['] 0
      match s.bare.drop i with
      | '[' :: _ => s.inside? (s.cut 0 i) (i + 1)
      | '=' :: _ =>
        (levelOrAll? (s.whole.drop (i + 1))).map fun level => { part := s.cut 0 i, level }
      | _ =>
        let text := String.ofList s.whole
        match level? text with
        | some level => some { level }
        | none => some { part := text }

end Source

/-- Reads a directive. -/
def ofChars? (text : List Char) : Option Directive :=
  (Source.mk text (trim (String.ofList text)).toList).directive?

/-! ## Events -/

/-- Whether events of a log have a field. The message is one of their fields. -/
def hasField (e : LogEvent) (name : String) : Bool :=
  name = "message" || e.fields.any fun f => f.1 = name

/-- Whether a directive is about an event that happens outside of all spans. A field's value can
only be that of a span. -/
def isAbout (d : Directive) (origin : String) (e : LogEvent) : Bool :=
  d.span.isNone
    && (d.part.all fun part => part.toList.isPrefixOf origin.toList)
    && d.field.all fun field => field.value.isNone && hasField e field.name

/-- How much of an origin a directive asks for; asking for no part at all is least. -/
def reach (d : Directive) : Nat := d.part.elim 0 fun part => part.utf8ByteSize + 1

/-- The name of the field that a directive asks for, or nothing. -/
def fieldName (d : Directive) : String := d.field.elim "" (·.name)

/-- Whether a directive goes before another if both are about an event: it asks for more of the
origin, or else for a field of a later name. -/
def precedes (d other : Directive) : Bool :=
  other.reach < d.reach || (d.reach = other.reach && decide (other.fieldName < d.fieldName))

end Directive

end ClusterSync
