import Countersign.Text.Hex

/-! Account addresses. -/

namespace Countersign

def Address.size : Nat := 20

structure Address where
  bytes : Vector UInt8 Address.size
deriving DecidableEq

namespace Address

def ofBytes? (bs : List UInt8) : Option Address :=
  if h : bs.length = size then some ⟨⟨bs.toArray, by simpa using h⟩⟩ else none

def toList (a : Address) : List UInt8 := a.bytes.toList

/-- The address in lower-case digits after 0x. -/
def text (a : Address) : String := String.ofList ('0' :: 'x' :: Text.Hex.ofBytes a.toList)

/-- The address with the given digits, of either case, after 0x, 0X or nothing. -/
def read? (s : String) : Option Address :=
  let digits := match s.toList with
    | '0' :: 'x' :: cs => cs
    | '0' :: 'X' :: cs => cs
    | cs => cs
  (Text.Hex.bytes? digits).bind ofBytes?

@[simp] theorem ofBytes?_toList (a : Address) : ofBytes? a.toList = some a := by
  obtain ⟨⟨bytes, h⟩⟩ := a
  simp [ofBytes?, toList, h]

@[simp] theorem length_toList (a : Address) : a.toList.length = size := by simp [toList]

theorem toList_inj {a b : Address} (h : a.toList = b.toList) : a = b :=
  Option.some.inj (by rw [← ofBytes?_toList a, h, ofBytes?_toList])

theorem read?_text (a : Address) : read? a.text = some a := by
  simp [read?, text, Text.Hex.bytes?_ofBytes]

end Address

end Countersign
