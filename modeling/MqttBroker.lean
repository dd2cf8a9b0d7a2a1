import MqttBroker.Logging.Filter
import MqttBroker.Main
import MqttBroker.Proofs.Packet.Arrival
import MqttBroker.Proofs.Packet.RoundTrip
import MqttBroker.Proofs.Connection.Reception
import MqttBroker.Proofs.Session.Tenancy
import MqttBroker.Proofs.Writer.Flushing
import MqttBroker.Proofs.Session.Custody
import MqttBroker.Proofs.Session.Responsive
import MqttBroker.Proofs.Network.Tenancies
import MqttBroker.Proofs.Broker.Routing
import MqttBroker.Proofs.Session.FlowControl
import MqttBroker.Proofs.Broker.Admitted
import MqttBroker.Proofs.Broker.Carrying
import MqttBroker.Proofs.Network.Intake
import MqttBroker.Proofs.Network.Tenure
import MqttBroker.Proofs.Network.Effects
import MqttBroker.Proofs.Network.Exchanges
import MqttBroker.Proofs.Network.Wills
import MqttBroker.Proofs.Broker.Stock
import MqttBroker.Proofs.Network.Topics
import MqttBroker.Proofs.Writer.Emission
import MqttBroker.Proofs.Session.Framing
import MqttBroker.Proofs.Writer.Sequence
import MqttBroker.Proofs.Session.Order
import MqttBroker.Proofs.Topic.Selection
import MqttBroker.Proofs.Session.Acknowledgement
import MqttBroker.Proofs.Network.Refused
import MqttBroker.Proofs.Network.Closing
import MqttBroker.Proofs.Session.Identifiers
import MqttBroker.Proofs.Session.Subscribed
import MqttBroker.Proofs.Broker.Windows
import MqttBroker.Proofs.Network.Windows
import MqttBroker.Proofs.Session.PacketSize
import MqttBroker.Proofs.Packet.Cutting
import MqttBroker.Proofs.Packet.Announced
import MqttBroker.Proofs.Packet.Failure
import MqttBroker.Proofs.Network.Answers
import MqttBroker.Proofs.Topic.Placement
import MqttBroker.Proofs.Session.Wakeups
import MqttBroker.Proofs.Packet.Relayed
import MqttBroker.Proofs.Broker.Replies
import MqttBroker.Proofs.Network.Encoding
import MqttBroker.Proofs.Broker.Upholding
import MqttBroker.Proofs.Network.Farewell
import MqttBroker.Proofs.Packet.Numerals
