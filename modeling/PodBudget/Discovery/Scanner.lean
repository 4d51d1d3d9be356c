import PodBudget.Discovery.Listing
import PodBudget.Monitor.State

/-!
Which pods of a listing are new. A pod is reported when it holds devices of the token resource and did not in
the listing before; a pod that has dropped out of a listing is reported again when it comes back.
-/
namespace PodBudget.Discovery

inductive ScanFault where
  | unconnected (socket : String)
  | notReady
  | refused
  deriving DecidableEq, Repr

def ScanFault.message : ScanFault → String
  | .unconnected socket => s!"Failed to connect to {socket}"
  | .notReady => "Kubelet pod-resources service not ready"
  | .refused => "Kubelet pod-resources List failed"

structure Scanner (α : Type) where
  resource : String
  tokensPerDevice : α
  seen : List String
  deriving DecidableEq, Repr

namespace Scanner

variable {α : Type} [Number α]

def new (resource : String) (tokensPerDevice : α) : Scanner α := ⟨resource, tokensPerDevice, []⟩

def holders (scanner : Scanner α) (listing : Listing) : Listing :=
  listing.filter fun pod => pod.count scanner.resource != 0

/-- The grant of a pod: its devices times what each of them stands for. -/
def grant (scanner : Scanner α) (pod : ListedPod) : Admission α :=
  ⟨pod.name, Number.ofNat (pod.count scanner.resource) * scanner.tokensPerDevice⟩

def review (scanner : Scanner α) (listing : Listing) : List (Admission α) × Scanner α :=
  let holders := scanner.holders listing
  ((holders.filter fun pod => !scanner.seen.contains pod.name).map scanner.grant,
    { scanner with seen := holders.map (·.name) })

/-- One scan; where there is no listing nothing changes. -/
def scan (scanner : Scanner α) (answer : Except ScanFault Listing) :
    Except ScanFault (List (Admission α)) × Scanner α :=
  match answer with
  | .error fault => (.error fault, scanner)
  | .ok listing =>
    let (admissions, scanner) := scanner.review listing
    (.ok admissions, scanner)

end Scanner
end PodBudget.Discovery
