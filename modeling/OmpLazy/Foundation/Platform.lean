import OmpLazy.Foundation.Json
import OmpLazy.Foundation.Text

namespace OmpLazy.Foundation

/-- What the platform does to text and to paths. Its normalization keeps ASCII and its hash is hex
digits. -/
structure Platform where
  nfc : String → String
  nfc_ascii : ∀ s : String, (∀ c ∈ s.toList, c.toNat < 128) → nfc s = s
  sha256 : String → String
  sha256_hex : ∀ s : String, ∀ c ∈ (sha256 s).toList, Text.isLowerHex c = true
  stringify : Json → String
  toLowerCase : String → String
  isAbsolute : String → Bool
  posixNormalize : String → String
  relative : String → String → String

theorem id_ascii (s : String) (_ : ∀ c ∈ s.toList, c.toNat < 128) : id s = s := rfl

theorem zeros_hex : ∀ c ∈ "00".toList, Text.isLowerHex c = true := List.all_eq_true.mp rfl

end OmpLazy.Foundation
