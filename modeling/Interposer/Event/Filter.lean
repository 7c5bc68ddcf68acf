import Interposer.Event.Basic

/-!
# Choosing events

A filter is a list of directives, each a threshold for the events of a target and of everything
below it. The directive with the longest target that fits an event decides about it; without one the
event is not reported.

Directives are written as a list with commas: a level alone for all events, `target=level`, or a
target alone for all levels of it. What cannot be read is left out.
-/

namespace Interposer

/-- The least severe level that passes, or none if nothing passes. -/
abbrev Threshold := Option Level

namespace Threshold

/-- The threshold that a word names, in capital or small letters. -/
def ofName? (name : String) : Option Threshold :=
  match name.toLower with
  | "off" => some none
  | "error" => some (some .error)
  | "warn" => some (some .warn)
  | "info" => some (some .info)
  | "debug" => some (some .debug)
  | "trace" => some (some .trace)
  | _ => none

/-- An event passes if it is at least as severe as the threshold. -/
def admits : Threshold → Level → Bool
  | none, _ => false
  | some least, level => level.rank ≤ least.rank

end Threshold

/-- A threshold for the events whose target begins with a text. -/
structure Directive where
  /-- The text that the targets begin with. -/
  target : String
  threshold : Threshold
  deriving DecidableEq, Repr

namespace Directive

/-- A directive as it is written: a level, a target, or both with an equals sign between them. -/
def parse? (text : String) : Option Directive :=
  match text.toList.splitOn '=' with
  | [word] =>
      if word = [] then none
      else match Threshold.ofName? text with
        | some threshold => some ⟨"", threshold⟩
        | none => some ⟨text, some .trace⟩
  | [target, name] =>
      (Threshold.ofName? (String.ofList name)).map fun threshold =>
        ⟨String.ofList target, threshold⟩
  | _ => none

/-- Whether a directive speaks of a target. -/
def covers (directive : Directive) (target : String) : Bool :=
  directive.target.toList.isPrefixOf target.toList

/-- The one of two directives that decides where both speak: the one with the longer target, and of
two with one target the one that stands later. -/
def stronger (earlier later : Directive) : Directive :=
  if later.target.length < earlier.target.length then earlier else later

end Directive

/-- The directives that choose the events to report, in the order in which they are written. -/
abbrev Filter := List Directive

namespace Filter

/-- The directives of a list with commas. -/
def parse (text : String) : Filter :=
  (text.toList.splitOn ',').filterMap fun piece => Directive.parse? (String.ofList piece)

/-- The directive that decides about a target, if one speaks of it. -/
def deciding? (filter : Filter) (target : String) : Option Directive :=
  (filter.filter (·.covers target)).foldl
    (fun found directive => some (found.elim directive (·.stronger directive))) none

/-- Whether events of a level and a target are to be reported. -/
def passes (filter : Filter) (level : Level) (target : String) : Bool :=
  (filter.deciding? target).any (·.threshold.admits level)

/-- Whether an event is to be reported. Its text has no part in this. -/
def enables (filter : Filter) (event : Event) : Bool := filter.passes event.level event.target

/-- Without directives nothing is reported. -/
@[simp] theorem enables_nil (event : Event) : enables [] event = false := rfl

end Filter

end Interposer
