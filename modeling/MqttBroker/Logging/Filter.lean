import MqttBroker.Logging.Directive
/-! Which log lines are let through, by a level and by an operator's directives. -/

namespace MqttBroker

namespace LogFilter

/-- Of several directives for the same the last counts. -/
def distinct (directives : List Directive) : List Directive :=
  directives.foldl (fun all d => d.add all) []

/-- The directives of a comma-separated list; what is no directive is passed over. One that is both
static and dynamic is in force as either. -/
def parse (text : String) : List Directive :=
  let all := (text.splitOn ",").filterMap fun part => Directive.ofText? part.toList
  let dynamic := all.filter Directive.isDynamic
  let static := all.filter (!·.isDynamic) ++ dynamic.filter Directive.isStatic
  distinct static ++ distinct dynamic

/-- The directives in force: those of `override` if there is one, and the level if they come to
nothing; otherwise the level, with chatty targets held at `info`. -/
def directives (level : LogLevel) (chatty : List String) : Option String → List Directive
  | some override => match parse override with
    | [] => [{ threshold := some level }]
    | all => all
  | none => { threshold := some level } :: chatty.map fun target =>
      { target := some target, threshold := some .info }

end LogFilter

end MqttBroker
