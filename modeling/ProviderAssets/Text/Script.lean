import ProviderAssets.Text.Runs

/-!
# Scripts

The script of a character, from the Unicode character database, under the four letters that stand
for it. The names of a script are written without capitals and separators.
-/

namespace ProviderAssets.Text

namespace Script

/-- The scripts with their names. -/
def names : List (String × List String) :=
  [("Adlm", ["adlm", "adlam"]), ("Aghb", ["aghb", "caucasianalbanian"]), ("Ahom", ["ahom"]),
   ("Arab", ["arab", "arabic"]), ("Armi", ["armi", "imperialaramaic"]),
   ("Armn", ["armn", "armenian"]), ("Avst", ["avst", "avestan"]), ("Bali", ["bali", "balinese"]),
   ("Bamu", ["bamu", "bamum"]), ("Bass", ["bass", "bassavah"]), ("Batk", ["batk", "batak"]),
   ("Beng", ["beng", "bengali"]), ("Bhks", ["bhks", "bhaiksuki"]), ("Bopo", ["bopo", "bopomofo"]),
   ("Brah", ["brah", "brahmi"]), ("Brai", ["brai", "braille"]), ("Bugi", ["bugi", "buginese"]),
   ("Buhd", ["buhd", "buhid"]), ("Cakm", ["cakm", "chakma"]),
   ("Cans", ["cans", "canadianaboriginal"]), ("Cari", ["cari", "carian"]), ("Cham", ["cham"]),
   ("Cher", ["cher", "cherokee"]), ("Chrs", ["chrs", "chorasmian"]),
   ("Copt", ["copt", "coptic", "qaac"]), ("Cpmn", ["cpmn", "cyprominoan"]),
   ("Cprt", ["cprt", "cypriot"]), ("Cyrl", ["cyrl", "cyrillic"]), ("Deva", ["deva", "devanagari"]),
   ("Diak", ["diak", "divesakuru"]), ("Dogr", ["dogr", "dogra"]), ("Dsrt", ["dsrt", "deseret"]),
   ("Dupl", ["dupl", "duployan"]), ("Egyp", ["egyp", "egyptianhieroglyphs"]),
   ("Elba", ["elba", "elbasan"]), ("Elym", ["elym", "elymaic"]), ("Ethi", ["ethi", "ethiopic"]),
   ("Geor", ["geor", "georgian"]), ("Glag", ["glag", "glagolitic"]),
   ("Gong", ["gong", "gunjalagondi"]), ("Gonm", ["gonm", "masaramgondi"]),
   ("Goth", ["goth", "gothic"]), ("Gran", ["gran", "grantha"]), ("Grek", ["grek", "greek"]),
   ("Gujr", ["gujr", "gujarati"]), ("Guru", ["guru", "gurmukhi"]), ("Hang", ["hang", "hangul"]),
   ("Hani", ["hani", "han"]), ("Hano", ["hano", "hanunoo"]), ("Hatr", ["hatr", "hatran"]),
   ("Hebr", ["hebr", "hebrew"]), ("Hira", ["hira", "hiragana"]),
   ("Hluw", ["hluw", "anatolianhieroglyphs"]), ("Hmng", ["hmng", "pahawhhmong"]),
   ("Hmnp", ["hmnp", "nyiakengpuachuehmong"]), ("Hung", ["hung", "oldhungarian"]),
   ("Ital", ["ital", "olditalic"]), ("Java", ["java", "javanese"]), ("Kali", ["kali", "kayahli"]),
   ("Kana", ["kana", "katakana"]), ("Kawi", ["kawi"]), ("Khar", ["khar", "kharoshthi"]),
   ("Khmr", ["khmr", "khmer"]), ("Khoj", ["khoj", "khojki"]),
   ("Kits", ["kits", "khitansmallscript"]), ("Knda", ["knda", "kannada"]),
   ("Kthi", ["kthi", "kaithi"]), ("Lana", ["lana", "taitham"]), ("Laoo", ["laoo", "lao"]),
   ("Latn", ["latn", "latin"]), ("Lepc", ["lepc", "lepcha"]), ("Limb", ["limb", "limbu"]),
   ("Lina", ["lina", "lineara"]), ("Linb", ["linb", "linearb"]), ("Lisu", ["lisu"]),
   ("Lyci", ["lyci", "lycian"]), ("Lydi", ["lydi", "lydian"]), ("Mahj", ["mahj", "mahajani"]),
   ("Maka", ["maka", "makasar"]), ("Mand", ["mand", "mandaic"]), ("Mani", ["mani", "manichaean"]),
   ("Marc", ["marc", "marchen"]), ("Medf", ["medf", "medefaidrin"]),
   ("Mend", ["mend", "mendekikakui"]), ("Merc", ["merc", "meroiticcursive"]),
   ("Mero", ["mero", "meroitichieroglyphs"]), ("Mlym", ["mlym", "malayalam"]), ("Modi", ["modi"]),
   ("Mong", ["mong", "mongolian"]), ("Mroo", ["mroo", "mro"]), ("Mtei", ["mtei", "meeteimayek"]),
   ("Mult", ["mult", "multani"]), ("Mymr", ["mymr", "myanmar"]), ("Nagm", ["nagm", "nagmundari"]),
   ("Nand", ["nand", "nandinagari"]), ("Narb", ["narb", "oldnortharabian"]),
   ("Nbat", ["nbat", "nabataean"]), ("Newa", ["newa"]), ("Nkoo", ["nkoo", "nko"]),
   ("Nshu", ["nshu", "nushu"]), ("Ogam", ["ogam", "ogham"]), ("Olck", ["olck", "olchiki"]),
   ("Orkh", ["orkh", "oldturkic"]), ("Orya", ["orya", "oriya"]), ("Osge", ["osge", "osage"]),
   ("Osma", ["osma", "osmanya"]), ("Ougr", ["ougr", "olduyghur"]), ("Palm", ["palm", "palmyrene"]),
   ("Pauc", ["pauc", "paucinhau"]), ("Perm", ["perm", "oldpermic"]), ("Phag", ["phag", "phagspa"]),
   ("Phli", ["phli", "inscriptionalpahlavi"]), ("Phlp", ["phlp", "psalterpahlavi"]),
   ("Phnx", ["phnx", "phoenician"]), ("Plrd", ["plrd", "miao"]),
   ("Prti", ["prti", "inscriptionalparthian"]), ("Rjng", ["rjng", "rejang"]),
   ("Rohg", ["rohg", "hanifirohingya"]), ("Runr", ["runr", "runic"]),
   ("Samr", ["samr", "samaritan"]), ("Sarb", ["sarb", "oldsoutharabian"]),
   ("Saur", ["saur", "saurashtra"]), ("Sgnw", ["sgnw", "signwriting"]),
   ("Shaw", ["shaw", "shavian"]), ("Shrd", ["shrd", "sharada"]), ("Sidd", ["sidd", "siddham"]),
   ("Sind", ["sind", "khudawadi"]), ("Sinh", ["sinh", "sinhala"]), ("Sogd", ["sogd", "sogdian"]),
   ("Sogo", ["sogo", "oldsogdian"]), ("Sora", ["sora", "sorasompeng"]),
   ("Soyo", ["soyo", "soyombo"]), ("Sund", ["sund", "sundanese"]),
   ("Sylo", ["sylo", "sylotinagri"]), ("Syrc", ["syrc", "syriac"]), ("Tagb", ["tagb", "tagbanwa"]),
   ("Takr", ["takr", "takri"]), ("Tale", ["tale", "taile"]), ("Talu", ["talu", "newtailue"]),
   ("Taml", ["taml", "tamil"]), ("Tang", ["tang", "tangut"]), ("Tavt", ["tavt", "taiviet"]),
   ("Telu", ["telu", "telugu"]), ("Tfng", ["tfng", "tifinagh"]), ("Tglg", ["tglg", "tagalog"]),
   ("Thaa", ["thaa", "thaana"]), ("Thai", ["thai"]), ("Tibt", ["tibt", "tibetan"]),
   ("Tirh", ["tirh", "tirhuta"]), ("Tnsa", ["tnsa", "tangsa"]), ("Toto", ["toto"]),
   ("Ugar", ["ugar", "ugaritic"]), ("Vaii", ["vaii", "vai"]), ("Vith", ["vith", "vithkuqi"]),
   ("Wara", ["wara", "warangciti"]), ("Wcho", ["wcho", "wancho"]),
   ("Xpeo", ["xpeo", "oldpersian"]), ("Xsux", ["xsux", "cuneiform"]), ("Yezi", ["yezi", "yezidi"]),
   ("Yiii", ["yiii", "yi"]), ("Zanb", ["zanb", "zanabazarsquare"]),
   ("Zinh", ["zinh", "inherited", "qaai"]), ("Zyyy", ["zyyy", "common"]),
   ("Zzzz", ["zzzz", "unknown"])]

/-- The runs of equal script from the first code point on: the last code point of the run in
hexadecimal, then the script's four letters. -/
def runsText : String := "
40Zyyy 5aLatn 60Zyyy 7aLatn a9Zyyy aaLatn b9Zyyy baLatn bfZyyy d6Latn d7Zyyy f6Latn f7Zyyy 2b8Latn
2dfZyyy 2e4Latn 2e9Zyyy 2ebBopo 2ffZyyy 36fZinh 373Grek 374Zyyy 377Grek 379Zzzz 37dGrek 37eZyyy
37fGrek 383Zzzz 384Grek 385Zyyy 386Grek 387Zyyy 38aGrek 38bZzzz 38cGrek 38dZzzz 3a1Grek 3a2Zzzz
3e1Grek 3efCopt 3ffGrek 484Cyrl 486Zinh 52fCyrl 530Zzzz 556Armn 558Zzzz 58aArmn 58cZzzz 58fArmn
590Zzzz 5c7Hebr 5cfZzzz 5eaHebr 5eeZzzz 5f4Hebr 5ffZzzz 604Arab 605Zyyy 60bArab 60cZyyy 61aArab
61bZyyy 61eArab 61fZyyy 63fArab 640Zyyy 64aArab 655Zinh 66fArab 670Zinh 6dcArab 6ddZyyy 6ffArab
70dSyrc 70eZzzz 74aSyrc 74cZzzz 74fSyrc 77fArab 7b1Thaa 7bfZzzz 7faNkoo 7fcZzzz 7ffNkoo 82dSamr
82fZzzz 83eSamr 83fZzzz 85bMand 85dZzzz 85eMand 85fZzzz 86aSyrc 86fZzzz 88eArab 88fZzzz 891Arab
897Zzzz 8e1Arab 8e2Zyyy 8ffArab 950Deva 954Zinh 963Deva 965Zyyy 97fDeva 983Beng 984Zzzz 98cBeng
98eZzzz 990Beng 992Zzzz 9a8Beng 9a9Zzzz 9b0Beng 9b1Zzzz 9b2Beng 9b5Zzzz 9b9Beng 9bbZzzz 9c4Beng
9c6Zzzz 9c8Beng 9caZzzz 9ceBeng 9d6Zzzz 9d7Beng 9dbZzzz 9ddBeng 9deZzzz 9e3Beng 9e5Zzzz 9feBeng
a00Zzzz a03Guru a04Zzzz a0aGuru a0eZzzz a10Guru a12Zzzz a28Guru a29Zzzz a30Guru a31Zzzz a33Guru
a34Zzzz a36Guru a37Zzzz a39Guru a3bZzzz a3cGuru a3dZzzz a42Guru a46Zzzz a48Guru a4aZzzz a4dGuru
a50Zzzz a51Guru a58Zzzz a5cGuru a5dZzzz a5eGuru a65Zzzz a76Guru a80Zzzz a83Gujr a84Zzzz a8dGujr
a8eZzzz a91Gujr a92Zzzz aa8Gujr aa9Zzzz ab0Gujr ab1Zzzz ab3Gujr ab4Zzzz ab9Gujr abbZzzz ac5Gujr
ac6Zzzz ac9Gujr acaZzzz acdGujr acfZzzz ad0Gujr adfZzzz ae3Gujr ae5Zzzz af1Gujr af8Zzzz affGujr
b00Zzzz b03Orya b04Zzzz b0cOrya b0eZzzz b10Orya b12Zzzz b28Orya b29Zzzz b30Orya b31Zzzz b33Orya
b34Zzzz b39Orya b3bZzzz b44Orya b46Zzzz b48Orya b4aZzzz b4dOrya b54Zzzz b57Orya b5bZzzz b5dOrya
b5eZzzz b63Orya b65Zzzz b77Orya b81Zzzz b83Taml b84Zzzz b8aTaml b8dZzzz b90Taml b91Zzzz b95Taml
b98Zzzz b9aTaml b9bZzzz b9cTaml b9dZzzz b9fTaml ba2Zzzz ba4Taml ba7Zzzz baaTaml badZzzz bb9Taml
bbdZzzz bc2Taml bc5Zzzz bc8Taml bc9Zzzz bcdTaml bcfZzzz bd0Taml bd6Zzzz bd7Taml be5Zzzz bfaTaml
bffZzzz c0cTelu c0dZzzz c10Telu c11Zzzz c28Telu c29Zzzz c39Telu c3bZzzz c44Telu c45Zzzz c48Telu
c49Zzzz c4dTelu c54Zzzz c56Telu c57Zzzz c5aTelu c5cZzzz c5dTelu c5fZzzz c63Telu c65Zzzz c6fTelu
c76Zzzz c7fTelu c8cKnda c8dZzzz c90Knda c91Zzzz ca8Knda ca9Zzzz cb3Knda cb4Zzzz cb9Knda cbbZzzz
cc4Knda cc5Zzzz cc8Knda cc9Zzzz ccdKnda cd4Zzzz cd6Knda cdcZzzz cdeKnda cdfZzzz ce3Knda ce5Zzzz
cefKnda cf0Zzzz cf3Knda cffZzzz d0cMlym d0dZzzz d10Mlym d11Zzzz d44Mlym d45Zzzz d48Mlym d49Zzzz
d4fMlym d53Zzzz d63Mlym d65Zzzz d7fMlym d80Zzzz d83Sinh d84Zzzz d96Sinh d99Zzzz db1Sinh db2Zzzz
dbbSinh dbcZzzz dbdSinh dbfZzzz dc6Sinh dc9Zzzz dcaSinh dceZzzz dd4Sinh dd5Zzzz dd6Sinh dd7Zzzz
ddfSinh de5Zzzz defSinh df1Zzzz df4Sinh e00Zzzz e3aThai e3eZzzz e3fZyyy e5bThai e80Zzzz e82Laoo
e83Zzzz e84Laoo e85Zzzz e8aLaoo e8bZzzz ea3Laoo ea4Zzzz ea5Laoo ea6Zzzz ebdLaoo ebfZzzz ec4Laoo
ec5Zzzz ec6Laoo ec7Zzzz eceLaoo ecfZzzz ed9Laoo edbZzzz edfLaoo effZzzz f47Tibt f48Zzzz f6cTibt
f70Zzzz f97Tibt f98Zzzz fbcTibt fbdZzzz fccTibt fcdZzzz fd4Tibt fd8Zyyy fdaTibt fffZzzz 109fMymr
10c5Geor 10c6Zzzz 10c7Geor 10ccZzzz 10cdGeor 10cfZzzz 10faGeor 10fbZyyy 10ffGeor 11ffHang 1248Ethi
1249Zzzz 124dEthi 124fZzzz 1256Ethi 1257Zzzz 1258Ethi 1259Zzzz 125dEthi 125fZzzz 1288Ethi 1289Zzzz
128dEthi 128fZzzz 12b0Ethi 12b1Zzzz 12b5Ethi 12b7Zzzz 12beEthi 12bfZzzz 12c0Ethi 12c1Zzzz 12c5Ethi
12c7Zzzz 12d6Ethi 12d7Zzzz 1310Ethi 1311Zzzz 1315Ethi 1317Zzzz 135aEthi 135cZzzz 137cEthi 137fZzzz
1399Ethi 139fZzzz 13f5Cher 13f7Zzzz 13fdCher 13ffZzzz 167fCans 169cOgam 169fZzzz 16eaRunr 16edZyyy
16f8Runr 16ffZzzz 1715Tglg 171eZzzz 171fTglg 1734Hano 1736Zyyy 173fZzzz 1753Buhd 175fZzzz 176cTagb
176dZzzz 1770Tagb 1771Zzzz 1773Tagb 177fZzzz 17ddKhmr 17dfZzzz 17e9Khmr 17efZzzz 17f9Khmr 17ffZzzz
1801Mong 1803Zyyy 1804Mong 1805Zyyy 1819Mong 181fZzzz 1878Mong 187fZzzz 18aaMong 18afZzzz 18f5Cans
18ffZzzz 191eLimb 191fZzzz 192bLimb 192fZzzz 193bLimb 193fZzzz 1940Limb 1943Zzzz 194fLimb 196dTale
196fZzzz 1974Tale 197fZzzz 19abTalu 19afZzzz 19c9Talu 19cfZzzz 19daTalu 19ddZzzz 19dfTalu 19ffKhmr
1a1bBugi 1a1dZzzz 1a1fBugi 1a5eLana 1a5fZzzz 1a7cLana 1a7eZzzz 1a89Lana 1a8fZzzz 1a99Lana 1a9fZzzz
1aadLana 1aafZzzz 1aceZinh 1affZzzz 1b4cBali 1b4fZzzz 1b7eBali 1b7fZzzz 1bbfSund 1bf3Batk 1bfbZzzz
1bffBatk 1c37Lepc 1c3aZzzz 1c49Lepc 1c4cZzzz 1c4fLepc 1c7fOlck 1c88Cyrl 1c8fZzzz 1cbaGeor 1cbcZzzz
1cbfGeor 1cc7Sund 1ccfZzzz 1cd2Zinh 1cd3Zyyy 1ce0Zinh 1ce1Zyyy 1ce8Zinh 1cecZyyy 1cedZinh 1cf3Zyyy
1cf4Zinh 1cf7Zyyy 1cf9Zinh 1cfaZyyy 1cffZzzz 1d25Latn 1d2aGrek 1d2bCyrl 1d5cLatn 1d61Grek 1d65Latn
1d6aGrek 1d77Latn 1d78Cyrl 1dbeLatn 1dbfGrek 1dffZinh 1effLatn 1f15Grek 1f17Zzzz 1f1dGrek 1f1fZzzz
1f45Grek 1f47Zzzz 1f4dGrek 1f4fZzzz 1f57Grek 1f58Zzzz 1f59Grek 1f5aZzzz 1f5bGrek 1f5cZzzz 1f5dGrek
1f5eZzzz 1f7dGrek 1f7fZzzz 1fb4Grek 1fb5Zzzz 1fc4Grek 1fc5Zzzz 1fd3Grek 1fd5Zzzz 1fdbGrek 1fdcZzzz
1fefGrek 1ff1Zzzz 1ff4Grek 1ff5Zzzz 1ffeGrek 1fffZzzz 200bZyyy 200dZinh 2064Zyyy 2065Zzzz 2070Zyyy
2071Latn 2073Zzzz 207eZyyy 207fLatn 208eZyyy 208fZzzz 209cLatn 209fZzzz 20c0Zyyy 20cfZzzz 20f0Zinh
20ffZzzz 2125Zyyy 2126Grek 2129Zyyy 212bLatn 2131Zyyy 2132Latn 214dZyyy 214eLatn 215fZyyy 2188Latn
218bZyyy 218fZzzz 2426Zyyy 243fZzzz 244aZyyy 245fZzzz 27ffZyyy 28ffBrai 2b73Zyyy 2b75Zzzz 2b95Zyyy
2b96Zzzz 2bffZyyy 2c5fGlag 2c7fLatn 2cf3Copt 2cf8Zzzz 2cffCopt 2d25Geor 2d26Zzzz 2d27Geor 2d2cZzzz
2d2dGeor 2d2fZzzz 2d67Tfng 2d6eZzzz 2d70Tfng 2d7eZzzz 2d7fTfng 2d96Ethi 2d9fZzzz 2da6Ethi 2da7Zzzz
2daeEthi 2dafZzzz 2db6Ethi 2db7Zzzz 2dbeEthi 2dbfZzzz 2dc6Ethi 2dc7Zzzz 2dceEthi 2dcfZzzz 2dd6Ethi
2dd7Zzzz 2ddeEthi 2ddfZzzz 2dffCyrl 2e5dZyyy 2e7fZzzz 2e99Hani 2e9aZzzz 2ef3Hani 2effZzzz 2fd5Hani
2fefZzzz 2ffbZyyy 2fffZzzz 3004Zyyy 3005Hani 3006Zyyy 3007Hani 3020Zyyy 3029Hani 302dZinh 302fHang
3037Zyyy 303bHani 303fZyyy 3040Zzzz 3096Hira 3098Zzzz 309aZinh 309cZyyy 309fHira 30a0Zyyy 30faKana
30fcZyyy 30ffKana 3104Zzzz 312fBopo 3130Zzzz 318eHang 318fZzzz 319fZyyy 31bfBopo 31e3Zyyy 31efZzzz
31ffKana 321eHang 321fZzzz 325fZyyy 327eHang 32cfZyyy 32feKana 32ffZyyy 3357Kana 33ffZyyy 4dbfHani
4dffZyyy 9fffHani a48cYiii a48fZzzz a4c6Yiii a4cfZzzz a4ffLisu a62bVaii a63fZzzz a69fCyrl a6f7Bamu
a6ffZzzz a721Zyyy a787Latn a78aZyyy a7caLatn a7cfZzzz a7d1Latn a7d2Zzzz a7d3Latn a7d4Zzzz a7d9Latn
a7f1Zzzz a7ffLatn a82cSylo a82fZzzz a839Zyyy a83fZzzz a877Phag a87fZzzz a8c5Saur a8cdZzzz a8d9Saur
a8dfZzzz a8ffDeva a92dKali a92eZyyy a92fKali a953Rjng a95eZzzz a95fRjng a97cHang a97fZzzz a9cdJava
a9ceZzzz a9cfZyyy a9d9Java a9ddZzzz a9dfJava a9feMymr a9ffZzzz aa36Cham aa3fZzzz aa4dCham aa4fZzzz
aa59Cham aa5bZzzz aa5fCham aa7fMymr aac2Tavt aadaZzzz aadfTavt aaf6Mtei ab00Zzzz ab06Ethi ab08Zzzz
ab0eEthi ab10Zzzz ab16Ethi ab1fZzzz ab26Ethi ab27Zzzz ab2eEthi ab2fZzzz ab5aLatn ab5bZyyy ab64Latn
ab65Grek ab69Latn ab6bZyyy ab6fZzzz abbfCher abedMtei abefZzzz abf9Mtei abffZzzz d7a3Hang d7afZzzz
d7c6Hang d7caZzzz d7fbHang f8ffZzzz fa6dHani fa6fZzzz fad9Hani faffZzzz fb06Latn fb12Zzzz fb17Armn
fb1cZzzz fb36Hebr fb37Zzzz fb3cHebr fb3dZzzz fb3eHebr fb3fZzzz fb41Hebr fb42Zzzz fb44Hebr fb45Zzzz
fb4fHebr fbc2Arab fbd2Zzzz fd3dArab fd3fZyyy fd8fArab fd91Zzzz fdc7Arab fdceZzzz fdcfArab fdefZzzz
fdffArab fe0fZinh fe19Zyyy fe1fZzzz fe2dZinh fe2fCyrl fe52Zyyy fe53Zzzz fe66Zyyy fe67Zzzz fe6bZyyy
fe6fZzzz fe74Arab fe75Zzzz fefcArab fefeZzzz feffZyyy ff00Zzzz ff20Zyyy ff3aLatn ff40Zyyy ff5aLatn
ff65Zyyy ff6fKana ff70Zyyy ff9dKana ff9fZyyy ffbeHang ffc1Zzzz ffc7Hang ffc9Zzzz ffcfHang ffd1Zzzz
ffd7Hang ffd9Zzzz ffdcHang ffdfZzzz ffe6Zyyy ffe7Zzzz ffeeZyyy fff8Zzzz fffdZyyy ffffZzzz 1000bLinb
1000cZzzz 10026Linb 10027Zzzz 1003aLinb 1003bZzzz 1003dLinb 1003eZzzz 1004dLinb 1004fZzzz 1005dLinb
1007fZzzz 100faLinb 100ffZzzz 10102Zyyy 10106Zzzz 10133Zyyy 10136Zzzz 1013fZyyy 1018eGrek 1018fZzzz
1019cZyyy 1019fZzzz 101a0Grek 101cfZzzz 101fcZyyy 101fdZinh 1027fZzzz 1029cLyci 1029fZzzz 102d0Cari
102dfZzzz 102e0Zinh 102fbZyyy 102ffZzzz 10323Ital 1032cZzzz 1032fItal 1034aGoth 1034fZzzz 1037aPerm
1037fZzzz 1039dUgar 1039eZzzz 1039fUgar 103c3Xpeo 103c7Zzzz 103d5Xpeo 103ffZzzz 1044fDsrt 1047fShaw
1049dOsma 1049fZzzz 104a9Osma 104afZzzz 104d3Osge 104d7Zzzz 104fbOsge 104ffZzzz 10527Elba 1052fZzzz
10563Aghb 1056eZzzz 1056fAghb 1057aVith 1057bZzzz 1058aVith 1058bZzzz 10592Vith 10593Zzzz 10595Vith
10596Zzzz 105a1Vith 105a2Zzzz 105b1Vith 105b2Zzzz 105b9Vith 105baZzzz 105bcVith 105ffZzzz 10736Lina
1073fZzzz 10755Lina 1075fZzzz 10767Lina 1077fZzzz 10785Latn 10786Zzzz 107b0Latn 107b1Zzzz 107baLatn
107ffZzzz 10805Cprt 10807Zzzz 10808Cprt 10809Zzzz 10835Cprt 10836Zzzz 10838Cprt 1083bZzzz 1083cCprt
1083eZzzz 1083fCprt 10855Armi 10856Zzzz 1085fArmi 1087fPalm 1089eNbat 108a6Zzzz 108afNbat 108dfZzzz
108f2Hatr 108f3Zzzz 108f5Hatr 108faZzzz 108ffHatr 1091bPhnx 1091eZzzz 1091fPhnx 10939Lydi 1093eZzzz
1093fLydi 1097fZzzz 1099fMero 109b7Merc 109bbZzzz 109cfMerc 109d1Zzzz 109ffMerc 10a03Khar 10a04Zzzz
10a06Khar 10a0bZzzz 10a13Khar 10a14Zzzz 10a17Khar 10a18Zzzz 10a35Khar 10a37Zzzz 10a3aKhar 10a3eZzzz
10a48Khar 10a4fZzzz 10a58Khar 10a5fZzzz 10a7fSarb 10a9fNarb 10abfZzzz 10ae6Mani 10aeaZzzz 10af6Mani
10affZzzz 10b35Avst 10b38Zzzz 10b3fAvst 10b55Prti 10b57Zzzz 10b5fPrti 10b72Phli 10b77Zzzz 10b7fPhli
10b91Phlp 10b98Zzzz 10b9cPhlp 10ba8Zzzz 10bafPhlp 10bffZzzz 10c48Orkh 10c7fZzzz 10cb2Hung 10cbfZzzz
10cf2Hung 10cf9Zzzz 10cffHung 10d27Rohg 10d2fZzzz 10d39Rohg 10e5fZzzz 10e7eArab 10e7fZzzz 10ea9Yezi
10eaaZzzz 10eadYezi 10eafZzzz 10eb1Yezi 10efcZzzz 10effArab 10f27Sogo 10f2fZzzz 10f59Sogd 10f6fZzzz
10f89Ougr 10fafZzzz 10fcbChrs 10fdfZzzz 10ff6Elym 10fffZzzz 1104dBrah 11051Zzzz 11075Brah 1107eZzzz
1107fBrah 110c2Kthi 110ccZzzz 110cdKthi 110cfZzzz 110e8Sora 110efZzzz 110f9Sora 110ffZzzz 11134Cakm
11135Zzzz 11147Cakm 1114fZzzz 11176Mahj 1117fZzzz 111dfShrd 111e0Zzzz 111f4Sinh 111ffZzzz 11211Khoj
11212Zzzz 11241Khoj 1127fZzzz 11286Mult 11287Zzzz 11288Mult 11289Zzzz 1128dMult 1128eZzzz 1129dMult
1129eZzzz 112a9Mult 112afZzzz 112eaSind 112efZzzz 112f9Sind 112ffZzzz 11303Gran 11304Zzzz 1130cGran
1130eZzzz 11310Gran 11312Zzzz 11328Gran 11329Zzzz 11330Gran 11331Zzzz 11333Gran 11334Zzzz 11339Gran
1133aZzzz 1133bZinh 11344Gran 11346Zzzz 11348Gran 1134aZzzz 1134dGran 1134fZzzz 11350Gran 11356Zzzz
11357Gran 1135cZzzz 11363Gran 11365Zzzz 1136cGran 1136fZzzz 11374Gran 113ffZzzz 1145bNewa 1145cZzzz
11461Newa 1147fZzzz 114c7Tirh 114cfZzzz 114d9Tirh 1157fZzzz 115b5Sidd 115b7Zzzz 115ddSidd 115ffZzzz
11644Modi 1164fZzzz 11659Modi 1165fZzzz 1166cMong 1167fZzzz 116b9Takr 116bfZzzz 116c9Takr 116ffZzzz
1171aAhom 1171cZzzz 1172bAhom 1172fZzzz 11746Ahom 117ffZzzz 1183bDogr 1189fZzzz 118f2Wara 118feZzzz
118ffWara 11906Diak 11908Zzzz 11909Diak 1190bZzzz 11913Diak 11914Zzzz 11916Diak 11917Zzzz 11935Diak
11936Zzzz 11938Diak 1193aZzzz 11946Diak 1194fZzzz 11959Diak 1199fZzzz 119a7Nand 119a9Zzzz 119d7Nand
119d9Zzzz 119e4Nand 119ffZzzz 11a47Zanb 11a4fZzzz 11aa2Soyo 11aafZzzz 11abfCans 11af8Pauc 11affZzzz
11b09Deva 11bffZzzz 11c08Bhks 11c09Zzzz 11c36Bhks 11c37Zzzz 11c45Bhks 11c4fZzzz 11c6cBhks 11c6fZzzz
11c8fMarc 11c91Zzzz 11ca7Marc 11ca8Zzzz 11cb6Marc 11cffZzzz 11d06Gonm 11d07Zzzz 11d09Gonm 11d0aZzzz
11d36Gonm 11d39Zzzz 11d3aGonm 11d3bZzzz 11d3dGonm 11d3eZzzz 11d47Gonm 11d4fZzzz 11d59Gonm 11d5fZzzz
11d65Gong 11d66Zzzz 11d68Gong 11d69Zzzz 11d8eGong 11d8fZzzz 11d91Gong 11d92Zzzz 11d98Gong 11d9fZzzz
11da9Gong 11edfZzzz 11ef8Maka 11effZzzz 11f10Kawi 11f11Zzzz 11f3aKawi 11f3dZzzz 11f59Kawi 11fafZzzz
11fb0Lisu 11fbfZzzz 11ff1Taml 11ffeZzzz 11fffTaml 12399Xsux 123ffZzzz 1246eXsux 1246fZzzz 12474Xsux
1247fZzzz 12543Xsux 12f8fZzzz 12ff2Cpmn 12fffZzzz 13455Egyp 143ffZzzz 14646Hluw 167ffZzzz 16a38Bamu
16a3fZzzz 16a5eMroo 16a5fZzzz 16a69Mroo 16a6dZzzz 16a6fMroo 16abeTnsa 16abfZzzz 16ac9Tnsa 16acfZzzz
16aedBass 16aefZzzz 16af5Bass 16affZzzz 16b45Hmng 16b4fZzzz 16b59Hmng 16b5aZzzz 16b61Hmng 16b62Zzzz
16b77Hmng 16b7cZzzz 16b8fHmng 16e3fZzzz 16e9aMedf 16effZzzz 16f4aPlrd 16f4eZzzz 16f87Plrd 16f8eZzzz
16f9fPlrd 16fdfZzzz 16fe0Tang 16fe1Nshu 16fe3Hani 16fe4Kits 16fefZzzz 16ff1Hani 16fffZzzz 187f7Tang
187ffZzzz 18affTang 18cd5Kits 18cffZzzz 18d08Tang 1afefZzzz 1aff3Kana 1aff4Zzzz 1affbKana 1affcZzzz
1affeKana 1afffZzzz 1b000Kana 1b11fHira 1b122Kana 1b131Zzzz 1b132Hira 1b14fZzzz 1b152Hira 1b154Zzzz
1b155Kana 1b163Zzzz 1b167Kana 1b16fZzzz 1b2fbNshu 1bbffZzzz 1bc6aDupl 1bc6fZzzz 1bc7cDupl 1bc7fZzzz
1bc88Dupl 1bc8fZzzz 1bc99Dupl 1bc9bZzzz 1bc9fDupl 1bca3Zyyy 1ceffZzzz 1cf2dZinh 1cf2fZzzz 1cf46Zinh
1cf4fZzzz 1cfc3Zyyy 1cfffZzzz 1d0f5Zyyy 1d0ffZzzz 1d126Zyyy 1d128Zzzz 1d166Zyyy 1d169Zinh 1d17aZyyy
1d182Zinh 1d184Zyyy 1d18bZinh 1d1a9Zyyy 1d1adZinh 1d1eaZyyy 1d1ffZzzz 1d245Grek 1d2bfZzzz 1d2d3Zyyy
1d2dfZzzz 1d2f3Zyyy 1d2ffZzzz 1d356Zyyy 1d35fZzzz 1d378Zyyy 1d3ffZzzz 1d454Zyyy 1d455Zzzz 1d49cZyyy
1d49dZzzz 1d49fZyyy 1d4a1Zzzz 1d4a2Zyyy 1d4a4Zzzz 1d4a6Zyyy 1d4a8Zzzz 1d4acZyyy 1d4adZzzz 1d4b9Zyyy
1d4baZzzz 1d4bbZyyy 1d4bcZzzz 1d4c3Zyyy 1d4c4Zzzz 1d505Zyyy 1d506Zzzz 1d50aZyyy 1d50cZzzz 1d514Zyyy
1d515Zzzz 1d51cZyyy 1d51dZzzz 1d539Zyyy 1d53aZzzz 1d53eZyyy 1d53fZzzz 1d544Zyyy 1d545Zzzz 1d546Zyyy
1d549Zzzz 1d550Zyyy 1d551Zzzz 1d6a5Zyyy 1d6a7Zzzz 1d7cbZyyy 1d7cdZzzz 1d7ffZyyy 1da8bSgnw 1da9aZzzz
1da9fSgnw 1daa0Zzzz 1daafSgnw 1deffZzzz 1df1eLatn 1df24Zzzz 1df2aLatn 1dfffZzzz 1e006Glag 1e007Zzzz
1e018Glag 1e01aZzzz 1e021Glag 1e022Zzzz 1e024Glag 1e025Zzzz 1e02aGlag 1e02fZzzz 1e06dCyrl 1e08eZzzz
1e08fCyrl 1e0ffZzzz 1e12cHmnp 1e12fZzzz 1e13dHmnp 1e13fZzzz 1e149Hmnp 1e14dZzzz 1e14fHmnp 1e28fZzzz
1e2aeToto 1e2bfZzzz 1e2f9Wcho 1e2feZzzz 1e2ffWcho 1e4cfZzzz 1e4f9Nagm 1e7dfZzzz 1e7e6Ethi 1e7e7Zzzz
1e7ebEthi 1e7ecZzzz 1e7eeEthi 1e7efZzzz 1e7feEthi 1e7ffZzzz 1e8c4Mend 1e8c6Zzzz 1e8d6Mend 1e8ffZzzz
1e94bAdlm 1e94fZzzz 1e959Adlm 1e95dZzzz 1e95fAdlm 1ec70Zzzz 1ecb4Zyyy 1ed00Zzzz 1ed3dZyyy 1edffZzzz
1ee03Arab 1ee04Zzzz 1ee1fArab 1ee20Zzzz 1ee22Arab 1ee23Zzzz 1ee24Arab 1ee26Zzzz 1ee27Arab 1ee28Zzzz
1ee32Arab 1ee33Zzzz 1ee37Arab 1ee38Zzzz 1ee39Arab 1ee3aZzzz 1ee3bArab 1ee41Zzzz 1ee42Arab 1ee46Zzzz
1ee47Arab 1ee48Zzzz 1ee49Arab 1ee4aZzzz 1ee4bArab 1ee4cZzzz 1ee4fArab 1ee50Zzzz 1ee52Arab 1ee53Zzzz
1ee54Arab 1ee56Zzzz 1ee57Arab 1ee58Zzzz 1ee59Arab 1ee5aZzzz 1ee5bArab 1ee5cZzzz 1ee5dArab 1ee5eZzzz
1ee5fArab 1ee60Zzzz 1ee62Arab 1ee63Zzzz 1ee64Arab 1ee66Zzzz 1ee6aArab 1ee6bZzzz 1ee72Arab 1ee73Zzzz
1ee77Arab 1ee78Zzzz 1ee7cArab 1ee7dZzzz 1ee7eArab 1ee7fZzzz 1ee89Arab 1ee8aZzzz 1ee9bArab 1eea0Zzzz
1eea3Arab 1eea4Zzzz 1eea9Arab 1eeaaZzzz 1eebbArab 1eeefZzzz 1eef1Arab 1efffZzzz 1f02bZyyy 1f02fZzzz
1f093Zyyy 1f09fZzzz 1f0aeZyyy 1f0b0Zzzz 1f0bfZyyy 1f0c0Zzzz 1f0cfZyyy 1f0d0Zzzz 1f0f5Zyyy 1f0ffZzzz
1f1adZyyy 1f1e5Zzzz 1f1ffZyyy 1f200Hira 1f202Zyyy 1f20fZzzz 1f23bZyyy 1f23fZzzz 1f248Zyyy 1f24fZzzz
1f251Zyyy 1f25fZzzz 1f265Zyyy 1f2ffZzzz 1f6d7Zyyy 1f6dbZzzz 1f6ecZyyy 1f6efZzzz 1f6fcZyyy 1f6ffZzzz
1f776Zyyy 1f77aZzzz 1f7d9Zyyy 1f7dfZzzz 1f7ebZyyy 1f7efZzzz 1f7f0Zyyy 1f7ffZzzz 1f80bZyyy 1f80fZzzz
1f847Zyyy 1f84fZzzz 1f859Zyyy 1f85fZzzz 1f887Zyyy 1f88fZzzz 1f8adZyyy 1f8afZzzz 1f8b1Zyyy 1f8ffZzzz
1fa53Zyyy 1fa5fZzzz 1fa6dZyyy 1fa6fZzzz 1fa7cZyyy 1fa7fZzzz 1fa88Zyyy 1fa8fZzzz 1fabdZyyy 1fabeZzzz
1fac5Zyyy 1facdZzzz 1fadbZyyy 1fadfZzzz 1fae8Zyyy 1faefZzzz 1faf8Zyyy 1faffZzzz 1fb92Zyyy 1fb93Zzzz
1fbcaZyyy 1fbefZzzz 1fbf9Zyyy 1ffffZzzz 2a6dfHani 2a6ffZzzz 2b739Hani 2b73fZzzz 2b81dHani 2b81fZzzz
2cea1Hani 2ceafZzzz 2ebe0Hani 2f7ffZzzz 2fa1dHani 2ffffZzzz 3134aHani 3134fZzzz 323afHani e0000Zzzz
e0001Zyyy e001fZzzz e007fZyyy e00ffZzzz e01efZinh 10ffffZzzz 10ffffZzzz"

/-- The runs as pairs of last code point and script, in ascending order. -/
def runs : Array (Nat × String) := Runs.ofText runsText

/-- The four letters of the script with the given name. -/
def ofName? (name : String) : Option String := (names.find? fun (_, ns) => name ∈ ns).map (·.1)

end Script

/-- The script of a character. -/
def script (c : Char) : String := (Runs.find? Script.runs c.toNat).getD "Zzzz"

end ProviderAssets.Text
