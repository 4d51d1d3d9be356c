import PodBudget.Number

/-! The two resources that a pod buys with tokens, and a value for each of them. -/
namespace PodBudget

inductive Kind where
  | cpu
  | gpu
  deriving DecidableEq, Repr

namespace Kind

def all : List Kind := [.cpu, .gpu]

def name : Kind → String
  | .cpu => "cpu"
  | .gpu => "gpu"

def index : Kind → Nat
  | .cpu => 0
  | .gpu => 1

theorem mem_all (kind : Kind) : kind ∈ all := by cases kind <;> decide

variable {α : Type} [Number α]

/-- Tokens per second for one percentage point of limit. -/
def price : Kind → α
  | .cpu => 1
  | .gpu => 3

/-- Counter units per second that make one percentage point of usage. -/
def scale : Kind → α
  | .cpu => 10000000
  | .gpu => 10

end Kind

structure PerKind (α : Type) where
  cpu : α
  gpu : α
  deriving DecidableEq, Repr

namespace PerKind

variable {α β : Type}

def get (values : PerKind α) : Kind → α
  | .cpu => values.cpu
  | .gpu => values.gpu

def set (values : PerKind α) (kind : Kind) (value : α) : PerKind α :=
  match kind with
  | .cpu => { values with cpu := value }
  | .gpu => { values with gpu := value }

def of (f : Kind → α) : PerKind α := ⟨f .cpu, f .gpu⟩

@[simp] theorem get_of (f : Kind → α) (kind : Kind) : (of f).get kind = f kind := by cases kind <;> rfl

def map (f : α → β) (values : PerKind α) : PerKind β := ⟨f values.cpu, f values.gpu⟩

def items (values : PerKind α) : List (Kind × α) :=
  Kind.all.map fun kind => (kind, values.get kind)

variable [Number α]

def zero : PerKind α := ⟨0, 0⟩

def pricedSum (values : PerKind α) : α :=
  Number.total (Kind.all.map fun kind => kind.price * values.get kind)

end PerKind
end PodBudget
