import ColorTheme.Observable.Basic

/-!
# Subscribers by rules

Subscribers to a whole number that are described by a list of rules: each has a condition on the
value and an effect.
-/

namespace ColorTheme.Observable

/-- The values that a rule is for: all, one, or those below a bound. -/
structure Condition where
  only : Option Int
  below : Option Int
  deriving DecidableEq, Repr

inductive Effect where
  | publish (value : Int)
  /-- Publishes the delivered value plus an amount. -/
  | add (amount : Int)
  | subscribe (name : String) (rules : List (Condition × Effect))
  | drop (name : String)
  | panic

structure Subscriber where
  name : String
  rules : List (Condition × Effect)

def Condition.holds (c : Condition) (value : Int) : Bool :=
  c.only.all (value = ·) && c.below.all (value < ·)

def Effect.act (value : Int) : Effect → Act Subscriber Int
  | .publish v => .publish v
  | .add amount => .publish (value + amount)
  | .subscribe name rules => .subscribe name ⟨name, rules⟩
  | .drop name => .drop name
  | .panic => .panic

/-- A subscriber goes through its rules in order. -/
def Subscriber.behavior : Behavior Subscriber Int := fun subscriber _ value =>
  (subscriber.rules.filter fun rule => rule.1.holds value).map fun rule => rule.2.act value

end ColorTheme.Observable
