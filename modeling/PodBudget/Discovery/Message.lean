import PodBudget.Discovery.Listing
import PodBudget.Wire.Record

/-!
Listings as messages. Fields without content are not written; the numbers of processors are written as one
chunk and may be read one by one too. Records of unknown fields are passed over, and records of different
fields may be mixed.
-/
namespace PodBudget.Discovery

open Wire

/-- How deep records may be nested in a listing; every message takes one level. -/
def maxNesting : Nat := 100

def text? (bytes : Bytes) : Option String := String.fromUTF8? ⟨bytes.toArray⟩

def textBytes (text : String) : Bytes := text.toUTF8.toList

def encodeText (field : Nat) (text : String) : Bytes :=
  if text = "" then [] else Record.encodeChunk field (textBytes text)

def Devices.empty : Devices := ⟨"", []⟩

def Devices.encode (devices : Devices) : Bytes :=
  encodeText 1 devices.resource ++ devices.ids.flatMap fun id => Record.encodeChunk 2 (textBytes id)

def Devices.take (devices : Devices) : Record → Option Devices
  | ⟨1, .chunk bytes⟩ => (text? bytes).map fun resource => { devices with resource }
  | ⟨2, .chunk bytes⟩ => (text? bytes).map fun id => { devices with ids := devices.ids ++ [id] }
  | ⟨1, _⟩ | ⟨2, _⟩ => none
  | _ => some devices

def Devices.decode (limit : Nat) (bytes : Bytes) : Option Devices := do
  (← Record.decodeAll limit bytes).foldlM Devices.take .empty

def Container.empty : Container := ⟨"", [], []⟩

def Container.encode (container : Container) : Bytes :=
  encodeText 1 container.name ++
    container.devices.flatMap (fun devices => Record.encodeChunk 2 devices.encode) ++
    if container.cpuIds = [] then []
    else Record.encodeChunk 3 (container.cpuIds.flatMap fun id => Varint.encode (ofSigned id))

def decodePacked (bytes : Bytes) : Option (List Nat) :=
  if bytes = [] then some []
  else
    match _found : Varint.decode bytes with
    | none => none
    | some (value, rest) => (decodePacked rest).map (value :: ·)
termination_by bytes.length
decreasing_by exact Varint.length_of_decode _found

def Container.take (limit : Nat) (container : Container) : Record → Option Container
  | ⟨1, .chunk bytes⟩ => (text? bytes).map fun name => { container with name }
  | ⟨2, .chunk bytes⟩ =>
    (Devices.decode (limit - 1) bytes).map fun devices =>
      { container with devices := container.devices ++ [devices] }
  | ⟨3, .chunk bytes⟩ =>
    (decodePacked bytes).map fun values =>
      { container with cpuIds := container.cpuIds ++ values.map toSigned }
  | ⟨3, .varint value⟩ => some { container with cpuIds := container.cpuIds ++ [toSigned value] }
  | ⟨1, _⟩ | ⟨2, _⟩ | ⟨3, _⟩ => none
  | _ => some container

def Container.decode (limit : Nat) (bytes : Bytes) : Option Container := do
  (← Record.decodeAll limit bytes).foldlM (Container.take limit) .empty

def ListedPod.empty : ListedPod := ⟨"", "", []⟩

def ListedPod.encode (pod : ListedPod) : Bytes :=
  encodeText 1 pod.name ++ encodeText 2 pod.domain ++
    pod.containers.flatMap fun container => Record.encodeChunk 3 container.encode

def ListedPod.take (limit : Nat) (pod : ListedPod) : Record → Option ListedPod
  | ⟨1, .chunk bytes⟩ => (text? bytes).map fun name => { pod with name }
  | ⟨2, .chunk bytes⟩ => (text? bytes).map fun domain => { pod with domain }
  | ⟨3, .chunk bytes⟩ =>
    (Container.decode (limit - 1) bytes).map fun container =>
      { pod with containers := pod.containers ++ [container] }
  | ⟨1, _⟩ | ⟨2, _⟩ | ⟨3, _⟩ => none
  | _ => some pod

def ListedPod.decode (limit : Nat) (bytes : Bytes) : Option ListedPod := do
  (← Record.decodeAll limit bytes).foldlM (ListedPod.take limit) .empty

def Listing.encode (listing : Listing) : Bytes :=
  listing.flatMap fun pod => Record.encodeChunk 1 pod.encode

def Listing.take (limit : Nat) (listing : Listing) : Record → Option Listing
  | ⟨1, .chunk bytes⟩ => (ListedPod.decode (limit - 1) bytes).map fun pod => listing ++ [pod]
  | ⟨1, _⟩ => none
  | _ => some listing

def Listing.decode (bytes : Bytes) : Option Listing := do
  (← Record.decodeAll maxNesting bytes).foldlM (Listing.take maxNesting) []

end PodBudget.Discovery
