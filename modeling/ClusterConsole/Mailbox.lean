/-
A mailbox takes messages until it is closed and gives them out in the order of arrival. Recipients
are views of its address for messages of other kinds, which are converted on delivery.
-/
import ClusterConsole.Text.Quoted

namespace ClusterConsole

/-- A named mailbox with the messages that wait in it. -/
structure Mailbox (μ : Type) where
  name : Text
  waiting : List μ := []
  closed : Bool := false
deriving DecidableEq

namespace Mailbox

variable {μ : Type}

/-- Sends a message; one to a closed mailbox is dropped. -/
def tell (b : Mailbox μ) (m : μ) : Mailbox μ :=
  if b.closed then b else { b with waiting := b.waiting ++ [m] }

/-- Gives out all messages that wait. -/
def drain (b : Mailbox μ) : Mailbox μ × List μ := ({ b with waiting := [] }, b.waiting)

/-- Closes the mailbox; messages that wait are lost. -/
def close (b : Mailbox μ) : Mailbox μ := { b with waiting := [], closed := true }

/-- How the address of a mailbox is shown. -/
def showAddress (b : Mailbox μ) : Text := "Addr(" ++ b.name.quoted ++ ")"

end Mailbox

/-- A view of a mailbox's address that takes messages of type `α`. -/
structure Recipient (α μ : Type) where
  name : Text
  convert : α → μ

namespace Recipient

variable {α β μ : Type}

/-- The view that converts each message with `convert`. -/
def of (b : Mailbox μ) (convert : α → μ) : Recipient α μ := ⟨b.name, convert⟩

/-- The view for messages that are converted twice. -/
def map (r : Recipient α μ) (convert : β → α) : Recipient β μ := ⟨r.name, r.convert ∘ convert⟩

/-- Sends a message through the view. -/
def tell (r : Recipient α μ) (b : Mailbox μ) (m : α) : Mailbox μ := b.tell (r.convert m)

/-- How a view is shown. -/
def display (r : Recipient α μ) : Text := "Recipient(" ++ r.name.quoted ++ ")"

end Recipient

end ClusterConsole
