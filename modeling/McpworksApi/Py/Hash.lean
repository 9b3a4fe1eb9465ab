import Mathlib.Tactic

/-! Byte strings and SHA-256. The hash is an arbitrary function to 32 bytes; its hexadecimal
digest is spelled out, since callers test the digest string for emptiness. -/

namespace McpworksApi.Py

abbrev Bytes := List UInt8

def encode (s : String) : Bytes := s.toList.flatMap String.utf8EncodeChar

structure Sha256 where
  digest : Bytes → Fin 32 → UInt8

def hexDigit (n : ℕ) : Char := "0123456789abcdef".toList.getD n '0'

def hexByte (b : UInt8) : List Char := [hexDigit (b.toNat / 16), hexDigit (b.toNat % 16)]

def Sha256.hexdigest (h : Sha256) (b : Bytes) : String :=
  String.ofList ((List.ofFn (h.digest b)).flatMap hexByte)

theorem Sha256.toList_hexdigest_length (h : Sha256) (b : Bytes) : (h.hexdigest b).toList.length = 64 := by
  simp only [hexdigest, String.toList_ofList, List.length_flatMap]
  have hb : (List.ofFn (h.digest b)).map (fun x => (hexByte x).length) = List.replicate 32 2 := by
    rw [List.eq_replicate_iff]
    simp [hexByte]
  rw [hb]
  rfl

theorem Sha256.hexdigest_ne_empty (h : Sha256) (b : Bytes) : h.hexdigest b ≠ "" := by
  intro he
  have := h.toList_hexdigest_length b
  rw [he] at this
  exact absurd this (by decide)

theorem hexDigit_ascii (n : ℕ) : (hexDigit n).toNat < 128 := by
  have ha : "0123456789abcdef".toList.all (·.toNat < 128) = true := by decide
  rw [hexDigit, List.getD_eq_getElem?_getD]
  rcases h : "0123456789abcdef".toList[n]? with _ | c
  · decide
  · simpa using List.all_eq_true.mp ha c (List.mem_of_getElem? h)

theorem Sha256.hexdigest_ascii (h : Sha256) (b : Bytes) : ∀ c ∈ (h.hexdigest b).toList, c.toNat < 128 := by
  intro c hc
  simp only [hexdigest, String.toList_ofList, List.mem_flatMap] at hc
  obtain ⟨x, -, hx⟩ := hc
  simp only [hexByte, List.mem_cons, List.not_mem_nil, or_false] at hx
  rcases hx with rfl | rfl <;> exact hexDigit_ascii _

end McpworksApi.Py
