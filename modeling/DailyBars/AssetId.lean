import DailyBars.Text.Digits

/-!
# Asset identifiers

Assets are known by signed 64-bit numbers, in numeric order. No number comes after the greatest.
-/

namespace DailyBars

/-- The number of an asset. -/
@[ext]
structure AssetId where
  value : Int64
deriving DecidableEq

namespace AssetId

instance : Inhabited AssetId := ⟨⟨0⟩⟩

instance : LE AssetId := ⟨fun a b ↦ a.value ≤ b.value⟩

instance : LT AssetId := ⟨fun a b ↦ a.value < b.value⟩

instance (a b : AssetId) : Decidable (a ≤ b) :=
  inferInstanceAs (Decidable (a.value ≤ b.value))

instance (a b : AssetId) : Decidable (a < b) :=
  inferInstanceAs (Decidable (a.value < b.value))

theorem le_iff_toInt {a b : AssetId} : a ≤ b ↔ a.value.toInt ≤ b.value.toInt :=
  Int64.le_iff_toInt_le

theorem lt_iff_toInt {a b : AssetId} : a < b ↔ a.value.toInt < b.value.toInt :=
  Int64.lt_iff_toInt_lt

theorem eq_iff_toInt {a b : AssetId} : a = b ↔ a.value.toInt = b.value.toInt := by
  rw [AssetId.ext_iff, Int64.toInt_inj]

/-- The number in decimal. -/
def text (asset : AssetId) : String :=
  Text.int64Text asset.value

/-- The number after this one, if there is one. -/
def next? (asset : AssetId) : Option AssetId :=
  if asset.value = Int64.maxValue then none else some ⟨asset.value + 1⟩

end AssetId

end DailyBars
