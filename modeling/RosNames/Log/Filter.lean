import RosNames.Log.Directive

/-!
# Which events are shown

A filter is a list of directives. Of those that apply to an event the most particular decides: the
one with the longest target, then one that asks for a part, then the last in the list.
-/

namespace RosNames.Log

namespace Directive

/-- The directive can be judged by an event alone. No event of this library happens inside a span,
and the values of parts are looked at in spans only. -/
def isStatic (d : Directive) : Bool := d.span.isNone && d.part.all fun p => p.value.isNone

def applies (d : Directive) (target : String) (e : Event) : Bool :=
  d.isStatic &&
    d.target.all (fun t => t.isPrefixOf (Utf8.encode target)) &&
    d.part.all fun p => e.partNames.any fun name => Utf8.encode name == p.name

def targetRank (d : Directive) : Nat := (d.target.map fun t => t.length + 1).getD 0

def outranks (d b : Directive) : Bool :=
  if d.targetRank = b.targetRank then
    match d.part, b.part with
    | none, some _ => false
    | some p, some q => q.name ≤ p.name
    | _, none => true
  else b.targetRank < d.targetRank

end Directive

abbrev Filter := List Directive

namespace Filter

def upTo (level : Level) : Filter := [{ limit := some level }]

/-- Directives between commas. Empty pieces do not count, and a list of none but these shows errors
alone. -/
def parse? (text : String) : Option Filter :=
  match (text.splitOn ",").filter (!·.isEmpty) with
  | [] => some (upTo .error)
  | pieces => pieces.mapM Directive.parse?

/-- The filter that a setting asks for. Without a setting, or with one that cannot be read,
warnings and errors are shown. -/
def ofSetting (setting : Option String) : Filter :=
  (setting.bind parse?).getD (upTo .warn)

def directive? (f : Filter) (target : String) (e : Event) : Option Directive :=
  f.foldl (fun best d =>
    if d.applies target e && best.all d.outranks then some d else best) none

def shows (f : Filter) (target : String) (e : Event) : Bool :=
  match (f.directive? target e).bind Directive.limit with
  | some limit => e.level.verbosity ≤ limit.verbosity
  | none => false

end Filter
end RosNames.Log
