/-!
Wake-up permits. A signal stores at most one permit: notifying sets it, and the one task that waits
takes it before it looks again.
-/

namespace MqttBroker

structure Signal where
  permit : Bool := false
deriving DecidableEq

namespace Signal

def notify (_ : Signal) : Signal := ⟨true⟩

/-- Takes the permit, if there is one. -/
def take? (s : Signal) : Option Signal := if s.permit then some ⟨false⟩ else none

end Signal

end MqttBroker
