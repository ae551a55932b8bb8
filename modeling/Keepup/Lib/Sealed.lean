import Mathlib.Logic.Basic

/-!
Authenticated encryption with its ideal laws: what was sealed under a key is
recovered under that key, and under no other. `Sealing.box` is the symbolic
cipher in which a token is the key beside the text.
-/

namespace Keepup.Lib

/-- Keys `K` read from `B`, choices `N` of a sealing, tokens `T`, texts `P`. -/
structure Sealing (B K N T P : Type) where
  readKey : B → Except String K
  encrypt : K → N → P → T
  decrypt : K → T → Option P
  decrypt_encrypt : ∀ k n p, decrypt k (encrypt k n p) = some p
  decrypt_other : ∀ k k' n p, k' ≠ k → decrypt k' (encrypt k n p) = none

namespace Sealing

variable {B K N T P : Type}

/-- A token that a key does not open was not sealed under it. -/
theorem encrypt_ne (s : Sealing B K N T P) {k : K} {t : T} (h : s.decrypt k t = none) (n : N)
    (p : P) : s.encrypt k n p ≠ t := by
  rintro rfl
  rw [s.decrypt_encrypt] at h
  cases h

def box (B P : Type) [DecidableEq B] : Sealing B B Unit (B × P) P where
  readKey := .ok
  encrypt k _ p := (k, p)
  decrypt k t := if k = t.1 then some t.2 else none
  decrypt_encrypt _ _ _ := if_pos rfl
  decrypt_other _ _ _ _ h := if_neg h

end Sealing

end Keepup.Lib
