import Transcription.CurrencyTable

/-!
# The built-in currency table

The table that is used when no other one is given.
-/

namespace Transcription.CurrencyTable

/-- Country, currency symbol and language of forty countries. -/
def builtin : CurrencyTable :=
  [⟨"US", "$", "en"⟩, ⟨"CA", "$", "en"⟩, ⟨"MX", "$", "es"⟩, ⟨"BR", "R$", "pt"⟩,
   ⟨"AR", "$", "es"⟩, ⟨"GB", "£", "en"⟩, ⟨"IE", "€", "ga"⟩, ⟨"DE", "€", "de"⟩, ⟨"FR", "€", "fr"⟩,
   ⟨"ES", "€", "es"⟩, ⟨"IT", "€", "it"⟩, ⟨"NL", "€", "nl"⟩, ⟨"BE", "€", "nl"⟩, ⟨"AT", "€", "de"⟩,
   ⟨"PT", "€", "pt"⟩, ⟨"FI", "€", "fi"⟩, ⟨"GR", "€", "el"⟩, ⟨"HR", "€", "hr"⟩, ⟨"BG", "€", "bg"⟩,
   ⟨"CH", "CHF", "de"⟩, ⟨"SE", "kr", "sv"⟩, ⟨"NO", "kr", "no"⟩, ⟨"DK", "kr", "da"⟩,
   ⟨"IS", "kr", "is"⟩, ⟨"PL", "zł", "pl"⟩, ⟨"HU", "Ft", "hu"⟩, ⟨"CZ", "Kč", "cs"⟩,
   ⟨"RS", "RSD", "sr"⟩, ⟨"RO", "lei", "ro"⟩, ⟨"RU", "₽", "ru"⟩, ⟨"TR", "₺", "tr"⟩,
   ⟨"UA", "₴", "uk"⟩, ⟨"JP", "¥", "ja"⟩, ⟨"CN", "¥", "zh"⟩, ⟨"KR", "₩", "ko"⟩, ⟨"IN", "₹", "hi"⟩,
   ⟨"AU", "$", "en"⟩, ⟨"NZ", "$", "en"⟩, ⟨"ZA", "R", "en"⟩, ⟨"IL", "₪", "he"⟩]

@[simp] theorem length_builtin : builtin.length = 40 := rfl

end Transcription.CurrencyTable
