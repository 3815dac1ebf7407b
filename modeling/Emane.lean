import Emane.Tdma.Lemmas.ByteAccounting
import Emane.Tdma.Lemmas.ReceivePipeline
import Emane.Tdma.Lemmas.SlotBudget
import Emane.Tdma.Lemmas.TxOpportunity
import Emane.Tdma.Lemmas.DequeueContract
import Emane.Tdma.Lemmas.QueueDelay
import Emane.Tdma.Lemmas.BaseModel
import Emane.Tdma.Lemmas.QueueMapping
import Emane.Tdma.Lemmas.MessageFraming
import Emane.Dlep.Lemmas.Serialize
import Emane.Dlep.Lemmas.AddressRun
import Emane.Dlep.Lemmas.DestAdvertMessage
import Emane.Dlep.Lemmas.AdvertItemsRun
import Emane.Dlep.Lemmas.OwnAdvert
import Emane.Dlep.Lemmas.PendingRun
import Emane.Dlep.Lemmas.LinkRun
import Emane.Dlep.Lemmas.Heartbeat
import Emane.Spectrum.Lemmas.AllOrNothing
import Emane.Ieee80211abg.Lemmas.NoiseSource
import Emane.Ieee80211abg.Lemmas.CategoryArray
import Emane.Ieee80211abg.Lemmas.Timing
import Emane.Ieee80211abg.Lemmas.Statistics
import Emane.Ieee80211abg.Lemmas.Retransmission
import Emane.Ota.Lemmas.Delivery
import Emane.Boundary.Lemmas.BoundaryMessageManager
import Emane.Timer.Lemmas.TimerThread
import Emane.RFPipe.Lemmas.MACLayer
import Emane.Event.Lemmas.EventService
import Emane.DlepLayer.Lemmas.ModemService
import Emane.ControlPort.Lemmas.Connection
import Emane.Configuration.Lemmas.ConfigurationRun
import Emane.Location.Lemmas.LocationManager
import Emane.Neighbor.Lemmas.DataRate
import Emane.Dlep.Lemmas.ItemRoundTrip
import Emane.Dlep.Lemmas.UpdateDataItems
import Emane.CommEffect.Lemmas.Target
import Emane.Eel.Lemmas.Generator
import Emane.CommEffect.Lemmas.Shim
import Emane.Transport.Lemmas.VirtualTransport
import Emane.Tdma.Lemmas.PORManager
import Emane.Antenna.Lemmas.AntennaProfileManifest
