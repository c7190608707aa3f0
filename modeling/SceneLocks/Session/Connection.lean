import Std.Data.ExtTreeMap

/-!
# Connections

The identity of one transport connection. A label may be used again after its connection
is gone; the serial number tells the two apart.
-/

namespace SceneLocks

/-- A transport connection, told apart from earlier ones of the same label. -/
structure ConnectionId where
  label : String
  serial : Nat := 0
deriving DecidableEq, Repr, Inhabited

namespace ConnectionId

/-- By label, then by age. -/
instance : Ord ConnectionId :=
  ⟨compareLex (compareOn ConnectionId.label) (compareOn ConnectionId.serial)⟩

instance : Std.TransOrd ConnectionId :=
  inferInstanceAs (Std.TransCmp
    (compareLex (compareOn ConnectionId.label) (compareOn ConnectionId.serial)))

instance : Std.LawfulEqOrd ConnectionId where
  eq_of_compare {a b} h := by
    have h : (compareLex (compareOn ConnectionId.label)
      (compareOn ConnectionId.serial)) a b = .eq := h
    rw [compareLex_eq_eq] at h
    obtain ⟨hl, hs⟩ := h
    have hl : a.label = b.label := Std.LawfulEqOrd.eq_of_compare hl
    have hs : a.serial = b.serial := Std.LawfulEqOrd.eq_of_compare hs
    cases a; cases b; simp_all

end ConnectionId

end SceneLocks
