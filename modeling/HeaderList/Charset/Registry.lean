import HeaderList.Charset.SingleByte
import HeaderList.Charset.Utf16

/-!
# `HeaderList/Charset/Registry.lean` — the charsets that have a name

Every charset that can be asked for: its canonical name, how it is read, and the labels that find
it. The labels come in two lists, the charset's own and its aliases: a label with a full stop in
it that finds nothing is looked for again with low lines instead, and then only among the aliases
(`Charset.find?`). The transforms are in the registry because their labels are taken; they turn
octets into octets and are no charsets.
-/

set_option autoImplicit false

namespace HeaderList

/-- How the octets of a charset are read. -/
inductive Scheme
  | ascii
  | latin1
  | singleByte (table : SingleByte)
  | utf8
  /-- UTF-8 with an optional mark at the start, which is dropped. -/
  | utf8Signed
  /-- UTF-16 in an order, or in the order that the mark at the start says. -/
  | utf16 (order : Option ByteOrder)
  | utf32 (order : Option ByteOrder)
  | idna
  /-- The charset that refuses everything. -/
  | undefinedEncoding
  /-- A charset that is known by name only. -/
  | undecoded
  /-- A change of octets into octets, which is no charset. -/
  | transform
deriving DecidableEq, Repr

structure Charset where
  name : String
  scheme : Scheme
  own : List String
  aliases : List String
deriving DecidableEq, Repr

namespace Charset

def registry : List Charset :=
  [⟨"base64", .transform, ["base64_codec"], ["base64", "base_64"]⟩,
   ⟨"bz2", .transform, ["bz2_codec"], ["bz2"]⟩,
   ⟨"hex", .transform, ["hex_codec"], ["hex"]⟩,
   ⟨"quopri", .transform, ["quopri_codec"], ["quopri", "quoted_printable", "quotedprintable"]⟩,
   ⟨"rot-13", .transform, ["rot_13"], ["rot13"]⟩,
   ⟨"uu", .transform, ["uu_codec"], ["uu"]⟩,
   ⟨"zlib", .transform, ["zlib_codec"], ["zip", "zlib"]⟩,
   ⟨"ascii", .ascii, ["ascii"],
     ["646", "ansi_x3.4_1968", "ansi_x3.4_1986", "ansi_x3_4_1968", "cp367", "csascii", "ibm367",
      "iso646_us", "iso_646.irv_1991", "iso_ir_6", "us", "us_ascii"]⟩,
   ⟨"big5", .undecoded, ["big5"], ["big5_tw", "csbig5", "x_mac_trad_chinese"]⟩,
   ⟨"big5hkscs", .undecoded, ["big5hkscs"], ["big5_hkscs", "hkscs"]⟩,
   ⟨"charmap", .undecoded, ["charmap"], []⟩,
   ⟨"cp037", .undecoded, ["cp037"],
     ["037", "csibm037", "ebcdic_cp_ca", "ebcdic_cp_nl", "ebcdic_cp_us", "ebcdic_cp_wt", "ibm037",
      "ibm039"]⟩,
   ⟨"cp1006", .undecoded, ["cp1006"], []⟩,
   ⟨"cp1026", .undecoded, ["cp1026"], ["1026", "csibm1026", "ibm1026"]⟩,
   ⟨"cp1125", .undecoded, ["cp1125"], ["1125", "cp866u", "ibm1125", "ruscii"]⟩,
   ⟨"cp1140", .undecoded, ["cp1140"], ["1140", "ibm1140"]⟩,
   ⟨"cp1250", .singleByte .windows1250, ["cp1250"], ["1250", "windows_1250"]⟩,
   ⟨"cp1251", .singleByte .windows1251, ["cp1251"], ["1251", "windows_1251"]⟩,
   ⟨"cp1252", .singleByte .windows1252, ["cp1252"], ["1252", "windows_1252"]⟩,
   ⟨"cp1253", .undecoded, ["cp1253"], ["1253", "windows_1253"]⟩,
   ⟨"cp1254", .undecoded, ["cp1254"], ["1254", "windows_1254"]⟩,
   ⟨"cp1255", .undecoded, ["cp1255"], ["1255", "windows_1255"]⟩,
   ⟨"cp1256", .undecoded, ["cp1256"], ["1256", "windows_1256"]⟩,
   ⟨"cp1257", .undecoded, ["cp1257"], ["1257", "windows_1257"]⟩,
   ⟨"cp1258", .undecoded, ["cp1258"], ["1258", "windows_1258"]⟩,
   ⟨"cp273", .undecoded, ["cp273"], ["273", "csibm273", "ibm273"]⟩,
   ⟨"cp424", .undecoded, ["cp424"], ["424", "csibm424", "ebcdic_cp_he", "ibm424"]⟩,
   ⟨"cp437", .singleByte .dos437, ["cp437"], ["437", "cspc8codepage437", "ibm437"]⟩,
   ⟨"cp500", .undecoded, ["cp500"], ["500", "csibm500", "ebcdic_cp_be", "ebcdic_cp_ch", "ibm500"]⟩,
   ⟨"cp720", .undecoded, ["cp720"], []⟩,
   ⟨"cp737", .undecoded, ["cp737"], []⟩,
   ⟨"cp775", .undecoded, ["cp775"], ["775", "cspc775baltic", "ibm775"]⟩,
   ⟨"cp850", .undecoded, ["cp850"], ["850", "cspc850multilingual", "ibm850"]⟩,
   ⟨"cp852", .undecoded, ["cp852"], ["852", "cspcp852", "ibm852"]⟩,
   ⟨"cp855", .undecoded, ["cp855"], ["855", "csibm855", "ibm855"]⟩,
   ⟨"cp856", .undecoded, ["cp856"], []⟩,
   ⟨"cp857", .undecoded, ["cp857"], ["857", "csibm857", "ibm857"]⟩,
   ⟨"cp858", .undecoded, ["cp858"], ["858", "csibm858", "ibm858"]⟩,
   ⟨"cp860", .undecoded, ["cp860"], ["860", "csibm860", "ibm860"]⟩,
   ⟨"cp861", .undecoded, ["cp861"], ["861", "cp_is", "csibm861", "ibm861"]⟩,
   ⟨"cp862", .undecoded, ["cp862"], ["862", "cspc862latinhebrew", "ibm862"]⟩,
   ⟨"cp863", .undecoded, ["cp863"], ["863", "csibm863", "ibm863"]⟩,
   ⟨"cp864", .undecoded, ["cp864"], ["864", "csibm864", "ibm864"]⟩,
   ⟨"cp865", .undecoded, ["cp865"], ["865", "csibm865", "ibm865"]⟩,
   ⟨"cp866", .undecoded, ["cp866"], ["866", "csibm866", "ibm866"]⟩,
   ⟨"cp869", .undecoded, ["cp869"], ["869", "cp_gr", "csibm869", "ibm869"]⟩,
   ⟨"cp874", .undecoded, ["cp874"], []⟩,
   ⟨"cp875", .undecoded, ["cp875"], []⟩,
   ⟨"cp932", .undecoded, ["cp932"], ["932", "ms932", "ms_kanji", "mskanji"]⟩,
   ⟨"cp949", .undecoded, ["cp949"], ["949", "ms949", "uhc"]⟩,
   ⟨"cp950", .undecoded, ["cp950"], ["950", "ms950"]⟩,
   ⟨"euc_jis_2004", .undecoded, ["euc_jis_2004"], ["euc_jis2004", "eucjis2004", "jisx0213"]⟩,
   ⟨"euc_jisx0213", .undecoded, ["euc_jisx0213"], ["eucjisx0213"]⟩,
   ⟨"euc_jp", .undecoded, ["euc_jp"], ["eucjp", "u_jis", "ujis"]⟩,
   ⟨"euc_kr", .undecoded, ["euc_kr"],
     ["euckr", "korean", "ks_c_5601", "ks_c_5601_1987", "ks_x_1001", "ksc5601", "ksx1001",
      "x_mac_korean"]⟩,
   ⟨"gb18030", .undecoded, ["gb18030"], ["gb18030_2000"]⟩,
   ⟨"gb2312", .undecoded, ["gb2312"],
     ["chinese", "csiso58gb231280", "euc_cn", "euccn", "eucgb2312_cn", "gb2312_1980", "gb2312_80",
      "iso_ir_58", "x_mac_simp_chinese"]⟩,
   ⟨"gbk", .undecoded, ["gbk"], ["936", "cp936", "ms936"]⟩,
   ⟨"hp-roman8", .undecoded, ["hp_roman8"], ["cp1051", "ibm1051", "r8", "roman8"]⟩,
   ⟨"hz", .undecoded, ["hz"], ["hz_gb", "hz_gb_2312", "hzgb"]⟩,
   ⟨"idna", .idna, ["idna"], []⟩,
   ⟨"iso2022_jp", .undecoded, ["iso2022_jp"], ["csiso2022jp", "iso2022jp", "iso_2022_jp"]⟩,
   ⟨"iso2022_jp_1", .undecoded, ["iso2022_jp_1"], ["iso2022jp_1", "iso_2022_jp_1"]⟩,
   ⟨"iso2022_jp_2", .undecoded, ["iso2022_jp_2"], ["iso2022jp_2", "iso_2022_jp_2"]⟩,
   ⟨"iso2022_jp_2004", .undecoded, ["iso2022_jp_2004"], ["iso2022jp_2004", "iso_2022_jp_2004"]⟩,
   ⟨"iso2022_jp_3", .undecoded, ["iso2022_jp_3"], ["iso2022jp_3", "iso_2022_jp_3"]⟩,
   ⟨"iso2022_jp_ext", .undecoded, ["iso2022_jp_ext"], ["iso2022jp_ext", "iso_2022_jp_ext"]⟩,
   ⟨"iso2022_kr", .undecoded, ["iso2022_kr"], ["csiso2022kr", "iso2022kr", "iso_2022_kr"]⟩,
   ⟨"iso8859-1", .latin1, ["latin_1"],
     ["8859", "cp819", "csisolatin1", "ibm819", "iso8859", "iso8859_1", "iso_8859_1",
      "iso_8859_1_1987", "iso_ir_100", "l1", "latin", "latin1"]⟩,
   ⟨"iso8859-10", .undecoded, ["iso8859_10"],
     ["csisolatin6", "iso_8859_10", "iso_8859_10_1992", "iso_ir_157", "l6", "latin6"]⟩,
   ⟨"iso8859-11", .undecoded, ["iso8859_11"], ["iso_8859_11", "iso_8859_11_2001", "thai"]⟩,
   ⟨"iso8859-13", .undecoded, ["iso8859_13"], ["iso_8859_13", "l7", "latin7"]⟩,
   ⟨"iso8859-14", .undecoded, ["iso8859_14"],
     ["iso_8859_14", "iso_8859_14_1998", "iso_celtic", "iso_ir_199", "l8", "latin8"]⟩,
   ⟨"iso8859-15", .singleByte .latin9, ["iso8859_15"], ["iso_8859_15", "l9", "latin9"]⟩,
   ⟨"iso8859-16", .undecoded, ["iso8859_16"],
     ["iso_8859_16", "iso_8859_16_2001", "iso_ir_226", "l10", "latin10"]⟩,
   ⟨"iso8859-2", .singleByte .latin2, ["iso8859_2"],
     ["csisolatin2", "iso_8859_2", "iso_8859_2_1987", "iso_ir_101", "l2", "latin2"]⟩,
   ⟨"iso8859-3", .undecoded, ["iso8859_3"],
     ["csisolatin3", "iso_8859_3", "iso_8859_3_1988", "iso_ir_109", "l3", "latin3"]⟩,
   ⟨"iso8859-4", .undecoded, ["iso8859_4"],
     ["csisolatin4", "iso_8859_4", "iso_8859_4_1988", "iso_ir_110", "l4", "latin4"]⟩,
   ⟨"iso8859-5", .singleByte .cyrillic, ["iso8859_5"],
     ["csisolatincyrillic", "cyrillic", "iso_8859_5", "iso_8859_5_1988", "iso_ir_144"]⟩,
   ⟨"iso8859-6", .undecoded, ["iso8859_6"],
     ["arabic", "asmo_708", "csisolatinarabic", "ecma_114", "iso_8859_6", "iso_8859_6_1987",
      "iso_ir_127"]⟩,
   ⟨"iso8859-7", .singleByte .greek, ["iso8859_7"],
     ["csisolatingreek", "ecma_118", "elot_928", "greek", "greek8", "iso_8859_7", "iso_8859_7_1987",
      "iso_ir_126"]⟩,
   ⟨"iso8859-8", .undecoded, ["iso8859_8"],
     ["csisolatinhebrew", "hebrew", "iso_8859_8", "iso_8859_8_1988", "iso_ir_138"]⟩,
   ⟨"iso8859-9", .undecoded, ["iso8859_9"],
     ["csisolatin5", "iso_8859_9", "iso_8859_9_1989", "iso_ir_148", "l5", "latin5"]⟩,
   ⟨"johab", .undecoded, ["johab"], ["cp1361", "ms1361"]⟩,
   ⟨"koi8-r", .singleByte .koi8r, ["koi8_r"], ["cskoi8r"]⟩,
   ⟨"koi8-t", .undecoded, ["koi8_t"], []⟩,
   ⟨"koi8-u", .undecoded, ["koi8_u"], []⟩,
   ⟨"kz1048", .undecoded, ["kz1048"], ["kz_1048", "rk1048", "strk1048_2002"]⟩,
   ⟨"mac-arabic", .undecoded, ["mac_arabic"], []⟩,
   ⟨"mac-croatian", .undecoded, ["mac_croatian"], []⟩,
   ⟨"mac-cyrillic", .undecoded, ["mac_cyrillic"], ["maccyrillic"]⟩,
   ⟨"mac-farsi", .undecoded, ["mac_farsi"], []⟩,
   ⟨"mac-greek", .undecoded, ["mac_greek"], ["macgreek"]⟩,
   ⟨"mac-iceland", .undecoded, ["mac_iceland"], ["maciceland"]⟩,
   ⟨"mac-latin2", .undecoded, ["mac_latin2"], ["mac_centeuro", "maccentraleurope", "maclatin2"]⟩,
   ⟨"mac-roman", .undecoded, ["mac_roman"], ["macintosh", "macroman"]⟩,
   ⟨"mac-romanian", .undecoded, ["mac_romanian"], []⟩,
   ⟨"mac-turkish", .undecoded, ["mac_turkish"], ["macturkish"]⟩,
   ⟨"palmos", .undecoded, ["palmos"], []⟩,
   ⟨"ptcp154", .undecoded, ["ptcp154"], ["cp154", "csptcp154", "cyrillic_asian", "pt154"]⟩,
   ⟨"punycode", .undecoded, ["punycode"], []⟩,
   ⟨"raw-unicode-escape", .undecoded, ["raw_unicode_escape"], []⟩,
   ⟨"shift_jis", .undecoded, ["shift_jis"],
     ["csshiftjis", "s_jis", "shiftjis", "sjis", "x_mac_japanese"]⟩,
   ⟨"shift_jis_2004", .undecoded, ["shift_jis_2004"], ["s_jis_2004", "shiftjis2004", "sjis_2004"]⟩,
   ⟨"shift_jisx0213", .undecoded, ["shift_jisx0213"], ["s_jisx0213", "shiftjisx0213", "sjisx0213"]⟩,
   ⟨"tis-620", .undecoded, ["tis_620"],
     ["iso_ir_166", "tis620", "tis_620_0", "tis_620_2529_0", "tis_620_2529_1"]⟩,
   ⟨"undefined", .undefinedEncoding, ["undefined"], []⟩,
   ⟨"unicode-escape", .undecoded, ["unicode_escape"], []⟩,
   ⟨"utf-16", .utf16 none, ["utf_16"], ["u16", "utf16"]⟩,
   ⟨"utf-16-be", .utf16 (some .big), ["utf_16_be"], ["unicodebigunmarked", "utf_16be"]⟩,
   ⟨"utf-16-le", .utf16 (some .little), ["utf_16_le"], ["unicodelittleunmarked", "utf_16le"]⟩,
   ⟨"utf-32", .utf32 none, ["utf_32"], ["u32", "utf32"]⟩,
   ⟨"utf-32-be", .utf32 (some .big), ["utf_32_be"], ["utf_32be"]⟩,
   ⟨"utf-32-le", .utf32 (some .little), ["utf_32_le"], ["utf_32le"]⟩,
   ⟨"utf-7", .undecoded, ["utf_7"], ["u7", "unicode_1_1_utf_7", "utf7"]⟩,
   ⟨"utf-8", .utf8, ["utf_8"], ["cp65001", "u8", "utf", "utf8", "utf8_ucs2", "utf8_ucs4"]⟩,
   ⟨"utf-8-sig", .utf8Signed, ["utf_8_sig"], []⟩]

/-- The charset that a normalised label finds. A label with full stops that finds none is tried
with low lines instead, but not as a charset's own label. -/
def find? (label : String) : Option Charset :=
  match registry.find? fun c => c.own.contains label || c.aliases.contains label with
  | some c => some c
  | none =>
    let plain := String.ofList (label.toList.map fun c => if c = '.' then '_' else c)
    registry.find? fun c => c.aliases.contains plain

end Charset

end HeaderList
