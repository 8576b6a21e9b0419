import Dhava.Foundations.Binary64
import Dhava.Spec.Models

/-! What the code takes from the machine it runs on: the addition of floats, and the order in
which SQLite returns the rows that `ORDER BY` leaves tied. -/

namespace Dhava

open Foundations

/-- Whether the first of two tied rows comes before the second, by key and deleted flag. Rows
it does not tell apart come in table order. -/
abbrev TieOrder := Key × Bool → Key × Bool → Bool

/-- The order of `idx_records_deleted`. -/
def liveFirst : TieOrder := fun a b => !a.2 || b.2

structure Platform where
  plus : RoundedSum := Binary64.sum
  ties : TieOrder := liveFirst

end Dhava
