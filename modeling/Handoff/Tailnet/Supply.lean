import Handoff.Bridge.Credential
import Handoff.Net.Endpoint

namespace Handoff.Tailnet

/-- What a tailnet is given by the system it runs on. Which ports and which texts these are is for
the system to choose. -/
structure Supply where
  /-- Loopback ports for sockets, in turn. One that another socket is bound to is passed over. -/
  port : Nat → Port
  /-- Ports that are tried before a bind fails. -/
  tries : Nat
  /-- Random texts for credentials, in turn. -/
  token : Nat → String
  size_token : ∀ k, (Text.utf8 (token k)).length = Credential.size

namespace Supply

/-- The digits of credentials. -/
def digits : List Char :=
  "0123456789ABCDEFGHIJKLMNOPQRSTUVWXYZabcdefghijklmnopqrstuvwxyz".toList

/-- The `k`-th text of letters and digits that has the size of a credential. -/
def alphanumeric (k : Nat) : String :=
  String.ofList ((List.range Credential.size).map fun i => digits.getD (k / Nat.pow 62 i % 62) '0')

theorem size_alphanumeric (k : Nat) : (Text.utf8 (alphanumeric k)).length = Credential.size := by
  have hdigits : digits.all (fun c => c.utf8Size = 1) = true := by
    decide +kernel
  have hone : ∀ i, (String.utf8EncodeChar (digits.getD i '0')).length = 1 := by
    intro i
    rw [String.length_utf8EncodeChar, List.getD_eq_getElem?_getD]
    cases hi : digits[i]? with
    | none => rfl
    | some c => exact of_decide_eq_true (List.all_eq_true.mp hdigits c (List.mem_of_getElem? hi))
  rw [alphanumeric, Text.utf8, String.toList_ofList, List.length_flatMap, List.map_map]
  simp only [Function.comp_def, hone]
  rfl

/-- Ports in a range that starts anew when it is used up, and texts one after the other. -/
def standard : Supply where
  port k := .ofNat (41873 + k % 19000)
  tries := 19000
  token := alphanumeric
  size_token := size_alphanumeric

end Supply
end Handoff.Tailnet
