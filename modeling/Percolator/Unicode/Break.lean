import Percolator.Unicode.Property

/-!
# Boundaries

The boundaries of graphemes, words and sentences depend on classes of characters. For each of the
three kinds of boundary this file lists the classes that have characters, in the form of
properties; the characters in none of them have no class to be asked for.
-/

namespace Percolator.Unicode

/-- The classes on which the boundaries of graphemes depend. -/
def graphemeBreaks : List Property := [
  { names := ["cr"]
    added := "D" },
  { names := ["control", "cn"]
    added := "0-9 B-C E-1F 7F-9F AD 61C 180E 200B 200E-200F 2028-202E 2060-206F FEFF FFF0-FFFB
      13430-1343F 1BCA0-1BCA3 1D173-1D17A E0000-E001F E0080-E00FF E01F0-E0FFF" },
  { names := ["extend", "ex"]
    categories := [.enclosingMark, .nonspacingMark]
    added := "9BE 9D7 B3E B57 BBE BD7 CC0 CC2 CC7-CC8 CCA-CCB CD5-CD6 D3E D57 DCF DDF 1715 1734
      1B35 1B3B 1B3D 1B43-1B44 1BAA 1BF2-1BF3 200C 302E-302F A953 A9C0 FF9E-FF9F 111C0 11235
      1133E 1134D 11357 113B8 113C2 113C5 113C7-113C9 113CF 114B0 114BD 115AF 116B6 11930 1193D
      11F41 16FF0-16FF1 1D165-1D166 1D16D-1D172 1F3FB-1F3FF E0020-E007F" },
  { names := ["l"]
    added := "1100-115F A960-A97C" },
  { names := ["lf"]
    added := "A" },
  { names := ["lv"]
    added := "AC00-D788/1C" },
  { names := ["lvt"]
    added := "AC00-D7A3"
    removed := "AC00-D788/1C" },
  { names := ["prepend", "pp"]
    added := "600-605 6DD 70F 890-891 8E2 D4E 110BD 110CD 111C2-111C3 113D1 1193F 11941 11A3A
      11A84-11A89 11D46 11F02" },
  { names := ["regionalindicator", "ri"]
    added := "1F1E6-1F1FF" },
  { names := ["spacingmark", "sm"]
    categories := [.spacingMark]
    added := "E33 EB3"
    removed := "9BE 9D7 B3E B57 BBE BD7 CC0 CC2 CC7-CC8 CCA-CCB CD5-CD6 D3E D57 DCF DDF 102B-102C
      1038 1062-1064 1067-106D 1083 1087-108C 108F 109A-109C 1715 1734 1A61 1A63-1A64 1B35 1B3B
      1B3D 1B43-1B44 1BAA 1BF2-1BF3 302E-302F A953 A9C0 AA7B AA7D 111C0 11235 1133E 1134D 11357
      113B8 113C2 113C5 113C7-113C9 113CF 114B0 114BD 115AF 116B6 11720-11721 11930 1193D 11F41
      16FF0-16FF1 1D165-1D166 1D16D-1D172" },
  { names := ["t"]
    added := "11A8-11FF D7CB-D7FB" },
  { names := ["v"]
    added := "1160-11A7 D7B0-D7C6 16D63 16D67-16D6A" },
  { names := ["zwj"]
    added := "200D" }]

/-- The classes on which the boundaries of words depend. -/
def wordBreaks : List Property := [
  { names := ["aletter", "le"]
    categories :=
      [.lowercaseLetter, .modifierLetter, .titlecaseLetter, .uppercaseLetter, .letterNumber]
    added := "AA BA 1BB 1C0-1C3 294 2C2-2C5 2D2-2D7 2DE-2DF 2E5-2EB 2ED 2EF-2FF 55A-55C 55E 58A
      5F3 620-63F 641-64A 66E-66F 671-6D3 6D5 6EE-6EF 6FA-6FC 6FF 70F-710 712-72F 74D-7A5 7B1
      7CA-7EA 800-815 840-858 860-86A 870-887 889-88E 8A0-8C8 904-939 93D 950 958-961 972-980
      985-98C 98F-990 993-9A8 9AA-9B0 9B2 9B6-9B9 9BD 9CE 9DC-9DD 9DF-9E1 9F0-9F1 9FC A05-A0A
      A0F-A10 A13-A28 A2A-A30 A32-A33 A35-A36 A38-A39 A59-A5C A5E A72-A74 A85-A8D A8F-A91 A93-AA8
      AAA-AB0 AB2-AB3 AB5-AB9 ABD AD0 AE0-AE1 AF9 B05-B0C B0F-B10 B13-B28 B2A-B30 B32-B33 B35-B39
      B3D B5C-B5D B5F-B61 B71 B83 B85-B8A B8E-B90 B92-B95 B99-B9A B9C B9E-B9F BA3-BA4 BA8-BAA
      BAE-BB9 BD0 C05-C0C C0E-C10 C12-C28 C2A-C39 C3D C58-C5A C5D C60-C61 C80 C85-C8C C8E-C90
      C92-CA8 CAA-CB3 CB5-CB9 CBD CDD-CDE CE0-CE1 CF1-CF2 D04-D0C D0E-D10 D12-D3A D3D D4E D54-D56
      D5F-D61 D7A-D7F D85-D96 D9A-DB1 DB3-DBB DBD DC0-DC6 F00 F40-F47 F49-F6C F88-F8C 1100-1248
      124A-124D 1250-1256 1258 125A-125D 1260-1288 128A-128D 1290-12B0 12B2-12B5 12B8-12BE 12C0
      12C2-12C5 12C8-12D6 12D8-1310 1312-1315 1318-135A 1380-138F 1401-166C 166F-167F 1681-169A
      16A0-16EA 16F1-16F8 1700-1711 171F-1731 1740-1751 1760-176C 176E-1770 1820-1842 1844-1878
      1880-1884 1887-18A8 18AA 18B0-18F5 1900-191E 1A00-1A16 1B05-1B33 1B45-1B4C 1B83-1BA0
      1BAE-1BAF 1BBA-1BE5 1C00-1C23 1C4D-1C4F 1C5A-1C77 1CE9-1CEC 1CEE-1CF3 1CF5-1CF6 1CFA
      2135-2138 24B6-24E9 2D30-2D67 2D80-2D96 2DA0-2DA6 2DA8-2DAE 2DB0-2DB6 2DB8-2DBE 2DC0-2DC6
      2DC8-2DCE 2DD0-2DD6 2DD8-2DDE 303C 3105-312F 3131-318E 31A0-31BF A000-A014 A016-A48C
      A4D0-A4F7 A500-A60B A610-A61F A62A-A62B A66E A6A0-A6E5 A708-A716 A720-A721 A789-A78A A78F
      A7F7 A7FB-A801 A803-A805 A807-A80A A80C-A822 A840-A873 A882-A8B3 A8F2-A8F7 A8FB A8FD-A8FE
      A90A-A925 A930-A946 A960-A97C A984-A9B2 AA00-AA28 AA40-AA42 AA44-AA4B AAE0-AAEA AAF2
      AB01-AB06 AB09-AB0E AB11-AB16 AB20-AB26 AB28-AB2E AB5B ABC0-ABE2 AC00-D7A3 D7B0-D7C6
      D7CB-D7FB FB50-FBB1 FBD3-FD3D FD50-FD8F FD92-FDC7 FDF0-FDFB FE70-FE74 FE76-FEFC FFA0-FFBE
      FFC2-FFC7 FFCA-FFCF FFD2-FFD7 FFDA-FFDC 10000-1000B 1000D-10026 10028-1003A 1003C-1003D
      1003F-1004D 10050-1005D 10080-100FA 10280-1029C 102A0-102D0 10300-1031F 1032D-10340
      10342-10349 10350-10375 10380-1039D 103A0-103C3 103C8-103CF 10450-1049D 10500-10527
      10530-10563 105C0-105F3 10600-10736 10740-10755 10760-10767 10800-10805 10808 1080A-10835
      10837-10838 1083C 1083F-10855 10860-10876 10880-1089E 108E0-108F2 108F4-108F5 10900-10915
      10920-10939 10980-109B7 109BE-109BF 10A00 10A10-10A13 10A15-10A17 10A19-10A35 10A60-10A7C
      10A80-10A9C 10AC0-10AC7 10AC9-10AE4 10B00-10B35 10B40-10B55 10B60-10B72 10B80-10B91
      10C00-10C48 10D00-10D23 10D4A-10D4D 10D4F 10E80-10EA9 10EB0-10EB1 10EC2-10EC4 10F00-10F1C
      10F27 10F30-10F45 10F70-10F81 10FB0-10FC4 10FE0-10FF6 11003-11037 11071-11072 11075
      11083-110AF 110D0-110E8 11103-11126 11144 11147 11150-11172 11176 11183-111B2 111C1-111C4
      111DA 111DC 11200-11211 11213-1122B 1123F-11240 11280-11286 11288 1128A-1128D 1128F-1129D
      1129F-112A8 112B0-112DE 11305-1130C 1130F-11310 11313-11328 1132A-11330 11332-11333
      11335-11339 1133D 11350 1135D-11361 11380-11389 1138B 1138E 11390-113B5 113B7 113D1 113D3
      11400-11434 11447-1144A 1145F-11461 11480-114AF 114C4-114C5 114C7 11580-115AE 115D8-115DB
      11600-1162F 11644 11680-116AA 116B8 11800-1182B 118FF-11906 11909 1190C-11913 11915-11916
      11918-1192F 1193F 11941 119A0-119A7 119AA-119D0 119E1 119E3 11A00 11A0B-11A32 11A3A 11A50
      11A5C-11A89 11A9D 11AB0-11AF8 11BC0-11BE0 11C00-11C08 11C0A-11C2E 11C40 11C72-11C8F
      11D00-11D06 11D08-11D09 11D0B-11D30 11D46 11D60-11D65 11D67-11D68 11D6A-11D89 11D98
      11EE0-11EF2 11F02 11F04-11F10 11F12-11F33 11FB0 12000-12399 12480-12543 12F90-12FF0
      13000-1342F 13441-13446 13460-143FA 14400-14646 16100-1611D 16800-16A38 16A40-16A5E
      16A70-16ABE 16AD0-16AED 16B00-16B2F 16B63-16B77 16B7D-16B8F 16D43-16D6A 16F00-16F4A 16F50
      1BC00-1BC6A 1BC70-1BC7C 1BC80-1BC88 1BC90-1BC99 1DF0A 1E100-1E12C 1E14E 1E290-1E2AD
      1E2C0-1E2EB 1E4D0-1E4EA 1E5D0-1E5ED 1E5F0 1E7E0-1E7E6 1E7E8-1E7EB 1E7ED-1E7EE 1E7F0-1E7FE
      1E800-1E8C4 1EE00-1EE03 1EE05-1EE1F 1EE21-1EE22 1EE24 1EE27 1EE29-1EE32 1EE34-1EE37 1EE39
      1EE3B 1EE42 1EE47-1EE4B/2 1EE4D-1EE4F 1EE51-1EE52 1EE54 1EE57-1EE5F/2 1EE61-1EE62 1EE64
      1EE67-1EE6A 1EE6C-1EE72 1EE74-1EE77 1EE79-1EE7C 1EE7E 1EE80-1EE89 1EE8B-1EE9B 1EEA1-1EEA3
      1EEA5-1EEA9 1EEAB-1EEBB 1F130-1F149 1F150-1F169 1F170-1F189"
    removed := "E46 EC6 17D7 1AA7 3007 3021-3029 3031-3035 3038-303A 309D-309E 30FC-30FE A9E6
      AA70 AADD FF70 FF9E-FF9F 1AFF0-1AFF3 1AFF5-1AFFB 1AFFD-1AFFE" },
  { names := ["cr"]
    added := "D" },
  { names := ["doublequote", "dq"]
    added := "22" },
  { names := ["extend"]
    categories := [.spacingMark, .enclosingMark, .nonspacingMark]
    added := "200C FF9E-FF9F 1F3FB-1F3FF E0020-E007F" },
  { names := ["extendnumlet", "ex"]
    added := "5F 202F 203F-2040 2054 FE33-FE34 FE4D-FE4F FF3F" },
  { names := ["format", "fo"]
    added := "AD 61C 180E 200E-200F 202A-202E 2060-2064 2066-206F FEFF FFF9-FFFB 13430-1343F
      1BCA0-1BCA3 1D173-1D17A E0001" },
  { names := ["hebrewletter", "hl"]
    added := "5D0-5EA 5EF-5F2 FB1D FB1F-FB28 FB2A-FB36 FB38-FB3C FB3E FB40-FB41 FB43-FB44
      FB46-FB4F" },
  { names := ["katakana", "ka"]
    added := "3031-3035 309B-309C 30A0-30FA 30FC-30FF 31F0-31FF 32D0-32FE 3300-3357 FF66-FF9D
      1AFF0-1AFF3 1AFF5-1AFFB 1AFFD-1AFFE 1B000 1B120-1B122 1B155 1B164-1B167" },
  { names := ["lf"]
    added := "A" },
  { names := ["midletter", "ml"]
    added := "3A B7 387 55F 5F4 2027 FE13 FE55 FF1A" },
  { names := ["midnum", "mn"]
    added := "2C 3B 37E 589 60C-60D 66C 7F8 2044 FE50 FE54 FF0C FF1B" },
  { names := ["midnumlet", "mb"]
    added := "2E 2018-2019 2024 FE52 FF07 FF0E" },
  { names := ["newline", "nl"]
    added := "B-C 85 2028-2029" },
  { names := ["numeric", "nu"]
    categories := [.decimalNumber]
    added := "600-605 66B 6DD 890-891 8E2 19DA 110BD 110CD" },
  { names := ["regionalindicator", "ri"]
    added := "1F1E6-1F1FF" },
  { names := ["singlequote", "sq"]
    added := "27" },
  { names := ["wsegspace"]
    added := "20 1680 2000-2006 2008-200A 205F 3000" },
  { names := ["zwj"]
    added := "200D" }]

/-- The classes on which the boundaries of sentences depend. -/
def sentenceBreaks : List Property := [
  { names := ["aterm", "at"]
    added := "2E 2024 FE52 FF0E" },
  { names := ["cr"]
    added := "D" },
  { names := ["close", "cl"]
    categories := [.closePunctuation, .finalPunctuation, .initialPunctuation, .openPunctuation]
    added := "22 27 275B-2760 2E00-2E01 2E06-2E08 2E0B 1F676-1F678" },
  { names := ["extend", "ex"]
    categories := [.spacingMark, .enclosingMark, .nonspacingMark]
    added := "200C-200D FF9E-FF9F E0020-E007F" },
  { names := ["format", "fo"]
    added := "AD 61C 70F 180E 200B 200E-200F 202A-202E 2060-2064 2066-206F FEFF FFF9-FFFB
      13430-1343F 1BCA0-1BCA3 1D173-1D17A E0001" },
  { names := ["lf"]
    added := "A" },
  { names := ["lower", "lo"]
    categories := [.lowercaseLetter]
    added := "AA BA 2B0-2B8 2C0-2C1 2E0-2E4 37A 10FC 1D2C-1D6A 1D78 1D9B-1DBF 2071 207F 2090-209C
      2170-217F 24D0-24E9 2C7C-2C7D A69C-A69D A770 A7F2-A7F4 A7F8-A7F9 AB5C-AB5F AB69 10780
      10783-10785 10787-107B0 107B2-107BA 1E030-1E06D"
    removed := "10D0-10FA 10FD-10FF" },
  { names := ["numeric", "nu"]
    categories := [.decimalNumber]
    added := "600-605 66B-66C 6DD 890-891 8E2 19DA 110BD 110CD" },
  { names := ["oletter", "le"]
    categories := [.otherLetter, .letterNumber]
    added := "2B9-2BF 2C6-2D1 2EC 2EE 374 559 5F3 640 6E5-6E6 7F4-7F5 7FA 81A 824 828 8C9 971 E46
      EC6 10D0-10FA 10FD-10FF 17D7 1843 1AA7 1C78-1C7D 1C90-1CBA 1CBD-1CBF 2D6F 2E2F 3005
      3031-3035 303B 309D-309E 30FC-30FE A015 A4F8-A4FD A60C A67F A717-A71F A788 A9CF A9E6 AA70
      AADD AAF3-AAF4 FF70 10781-10782 10D4E 10D6F 16B40-16B43 16D40-16D42 16D6B-16D6C 16F93-16F9F
      16FE0-16FE1 16FE3 1AFF0-1AFF3 1AFF5-1AFFB 1AFFD-1AFFE 1E137-1E13D 1E4EB 1E94B"
    removed := "AA BA 2160-217F" },
  { names := ["scontinue", "sc"]
    added := "2C-2D 3A-3B 37E 55D 60C-60D 7F8 1802 1808 2013-2014 3001 FE10-FE11 FE13-FE14
      FE31-FE32 FE50-FE51 FE54-FE55 FE58 FE63 FF0C-FF0D FF1A-FF1B FF64" },
  { names := ["sterm", "st"]
    added := "21 3F 589 61D-61F 6D4 700-702 7F9 837 839 83D-83E 964-965 104A-104B 1362 1367-1368
      166E 1735-1736 17D4-17D5 1803 1809 1944-1945 1AA8-1AAB 1B4E-1B4F 1B5A-1B5B 1B5E-1B5F
      1B7D-1B7F 1C3B-1C3C 1C7E-1C7F 203C-203D 2047-2049 2CF9-2CFB 2E2E 2E3C 2E53-2E54 3002 A4FF
      A60E-A60F A6F3 A6F7 A876-A877 A8CE-A8CF A92F A9C8-A9C9 AA5D-AA5F AAF0-AAF1 ABEB FE12
      FE15-FE16 FE56-FE57 FF01 FF1F FF61 10A56-10A57 10F55-10F59 10F86-10F89 11047-11048
      110BE-110C1 11141-11143 111C5-111C6 111CD 111DE-111DF 11238-11239 1123B-1123C 112A9
      113D4-113D5 1144B-1144C 115C2-115C3 115C9-115D7 11641-11642 1173C-1173E 11944 11946
      11A42-11A43 11A9B-11A9C 11C41-11C42 11EF7-11EF8 11F43-11F44 16A6E-16A6F 16AF5 16B37-16B38
      16B44 16D6E-16D6F 16E98 1BC9F 1DA88" },
  { names := ["sep", "se"]
    added := "85 2028-2029" },
  { names := ["sp"]
    added := "9 B-C 20 A0 1680 2000-200A 202F 205F 3000" },
  { names := ["upper", "up"]
    categories := [.titlecaseLetter, .uppercaseLetter]
    added := "2160-216F 24B6-24CF 1F130-1F149 1F150-1F169 1F170-1F189"
    removed := "1C90-1CBA 1CBD-1CBF" }]

end Percolator.Unicode
