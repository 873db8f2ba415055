/-!
# Letters without their accents

An accented letter is a plain letter with combining marks, and the canonical decomposition of a text
takes the two apart. `unaccented` gives what is left of a character when the marks U+0300 to U+036F
are dropped from its decomposition, for the characters that decompose into a letter of ASCII or the
grave accent that stands alone.
-/

namespace ItemCatalog.Text

/-- The combining marks for accents. -/
def isAccentMark (c : Char) : Bool :=
  0x300 ≤ c.toNat && c.toNat ≤ 0x36F

/-- Each plain character with the characters that decompose into it and accent marks. -/
def accentedForms : List (Char × String) := [
    ('A', "ÀÁÂÃÄÅĀĂĄǍǞǠǺȀȂȦḀẠẢẤẦẨẪẬẮẰẲẴẶ\u212b"),
    ('B', "ḂḄḆ"),
    ('C', "ÇĆĈĊČḈ"),
    ('D', "ĎḊḌḎḐḒ"),
    ('E', "ÈÉÊËĒĔĖĘĚȄȆȨḔḖḘḚḜẸẺẼẾỀỂỄỆ"),
    ('F', "Ḟ"),
    ('G', "ĜĞĠĢǦǴḠ"),
    ('H', "ĤȞḢḤḦḨḪ"),
    ('I', "ÌÍÎÏĨĪĬĮİǏȈȊḬḮỈỊ"),
    ('J', "Ĵ"),
    ('K', "ĶǨḰḲḴ\u212a"),
    ('L', "ĹĻĽḶḸḺḼ"),
    ('M', "ḾṀṂ"),
    ('N', "ÑŃŅŇǸṄṆṈṊ"),
    ('O', "ÒÓÔÕÖŌŎŐƠǑǪǬȌȎȪȬȮȰṌṎṐṒỌỎỐỒỔỖỘỚỜỞỠỢ"),
    ('P', "ṔṖ"),
    ('R', "ŔŖŘȐȒṘṚṜṞ"),
    ('S', "ŚŜŞŠȘṠṢṤṦṨ"),
    ('T', "ŢŤȚṪṬṮṰ"),
    ('U', "ÙÚÛÜŨŪŬŮŰŲƯǓǕǗǙǛȔȖṲṴṶṸṺỤỦỨỪỬỮỰ"),
    ('V', "ṼṾ"),
    ('W', "ŴẀẂẄẆẈ"),
    ('X', "ẊẌ"),
    ('Y', "ÝŶŸȲẎỲỴỶỸ"),
    ('Z', "ŹŻŽẐẒẔ"),
    (Char.ofNat 0x60, "\u1fef"),
    ('a', "àáâãäåāăąǎǟǡǻȁȃȧḁạảấầẩẫậắằẳẵặ"),
    ('b', "ḃḅḇ"),
    ('c', "çćĉċčḉ"),
    ('d', "ďḋḍḏḑḓ"),
    ('e', "èéêëēĕėęěȅȇȩḕḗḙḛḝẹẻẽếềểễệ"),
    ('f', "ḟ"),
    ('g', "ĝğġģǧǵḡ"),
    ('h', "ĥȟḣḥḧḩḫẖ"),
    ('i', "ìíîïĩīĭįǐȉȋḭḯỉị"),
    ('j', "ĵǰ"),
    ('k', "ķǩḱḳḵ"),
    ('l', "ĺļľḷḹḻḽ"),
    ('m', "ḿṁṃ"),
    ('n', "ñńņňǹṅṇṉṋ"),
    ('o', "òóôõöōŏőơǒǫǭȍȏȫȭȯȱṍṏṑṓọỏốồổỗộớờởỡợ"),
    ('p', "ṕṗ"),
    ('r', "ŕŗřȑȓṙṛṝṟ"),
    ('s', "śŝşšșṡṣṥṧṩ"),
    ('t', "ţťțṫṭṯṱẗ"),
    ('u', "ùúûüũūŭůűųưǔǖǘǚǜȕȗṳṵṷṹṻụủứừửữự"),
    ('v', "ṽṿ"),
    ('w', "ŵẁẃẅẇẉẘ"),
    ('x', "ẋẍ"),
    ('y', "ýÿŷȳẏẙỳỵỷỹ"),
    ('z', "źżžẑẓẕ")]

/-- A character without its accents. -/
def unaccented (c : Char) : Char :=
  if c.toNat < 128 then c
  else match accentedForms.find? (fun (_, forms) => forms.toList.contains c) with
    | some (plain, _) => plain
    | none => c

end ItemCatalog.Text
