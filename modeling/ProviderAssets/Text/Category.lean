import ProviderAssets.Text.Runs

/-!
# General category

The general category of a character, from the Unicode character database.
-/

namespace ProviderAssets.Text

/-- The general categories, under the names of the standard. -/
inductive Category where
  | lu | ll | lt | lm | lo
  | mn | mc | me
  | nd | nl | no
  | pc | pd | ps | pe | pi | pf | po
  | sm | sc | sk | so
  | zs | zl | zp
  | cc | cf | cs | co | cn
  deriving DecidableEq, Inhabited

namespace Category

/-- The two letters that stand for each category. -/
def codes : List (String × Category) :=
  [("Lu", lu), ("Ll", ll), ("Lt", lt), ("Lm", lm), ("Lo", lo), ("Mn", mn), ("Mc", mc), ("Me", me),
    ("Nd", nd), ("Nl", nl), ("No", no), ("Pc", pc), ("Pd", pd), ("Ps", ps), ("Pe", pe), ("Pi", pi),
    ("Pf", pf), ("Po", po), ("Sm", sm), ("Sc", sc), ("Sk", sk), ("So", so), ("Zs", zs), ("Zl", zl),
    ("Zp", zp), ("Cc", cc), ("Cf", cf), ("Cs", cs), ("Co", co), ("Cn", cn)]

/-- The runs of equal category from the first code point on: the last code point of the run in
hexadecimal, then the category's two letters. -/
def runsText : String := "
1fCc 20Zs 23Po 24Sc 27Po 28Ps 29Pe 2aPo 2bSm 2cPo 2dPd 2fPo 39Nd 3bPo 3eSm 40Po 5aLu 5bPs 5cPo
5dPe 5eSk 5fPc 60Sk 7aLl 7bPs 7cSm 7dPe 7eSm 9fCc a0Zs a1Po a5Sc a6So a7Po a8Sk a9So aaLo abPi
acSm adCf aeSo afSk b0So b1Sm b3No b4Sk b5Ll b7Po b8Sk b9No baLo bbPf beNo bfPo d6Lu d7Sm deLu
f6Ll f7Sm ffLl 100Lu 101Ll 102Lu 103Ll 104Lu 105Ll 106Lu 107Ll 108Lu 109Ll 10aLu 10bLl 10cLu 10dLl
10eLu 10fLl 110Lu 111Ll 112Lu 113Ll 114Lu 115Ll 116Lu 117Ll 118Lu 119Ll 11aLu 11bLl 11cLu 11dLl
11eLu 11fLl 120Lu 121Ll 122Lu 123Ll 124Lu 125Ll 126Lu 127Ll 128Lu 129Ll 12aLu 12bLl 12cLu 12dLl
12eLu 12fLl 130Lu 131Ll 132Lu 133Ll 134Lu 135Ll 136Lu 138Ll 139Lu 13aLl 13bLu 13cLl 13dLu 13eLl
13fLu 140Ll 141Lu 142Ll 143Lu 144Ll 145Lu 146Ll 147Lu 149Ll 14aLu 14bLl 14cLu 14dLl 14eLu 14fLl
150Lu 151Ll 152Lu 153Ll 154Lu 155Ll 156Lu 157Ll 158Lu 159Ll 15aLu 15bLl 15cLu 15dLl 15eLu 15fLl
160Lu 161Ll 162Lu 163Ll 164Lu 165Ll 166Lu 167Ll 168Lu 169Ll 16aLu 16bLl 16cLu 16dLl 16eLu 16fLl
170Lu 171Ll 172Lu 173Ll 174Lu 175Ll 176Lu 177Ll 179Lu 17aLl 17bLu 17cLl 17dLu 180Ll 182Lu 183Ll
184Lu 185Ll 187Lu 188Ll 18bLu 18dLl 191Lu 192Ll 194Lu 195Ll 198Lu 19bLl 19dLu 19eLl 1a0Lu 1a1Ll
1a2Lu 1a3Ll 1a4Lu 1a5Ll 1a7Lu 1a8Ll 1a9Lu 1abLl 1acLu 1adLl 1afLu 1b0Ll 1b3Lu 1b4Ll 1b5Lu 1b6Ll
1b8Lu 1baLl 1bbLo 1bcLu 1bfLl 1c3Lo 1c4Lu 1c5Lt 1c6Ll 1c7Lu 1c8Lt 1c9Ll 1caLu 1cbLt 1ccLl 1cdLu
1ceLl 1cfLu 1d0Ll 1d1Lu 1d2Ll 1d3Lu 1d4Ll 1d5Lu 1d6Ll 1d7Lu 1d8Ll 1d9Lu 1daLl 1dbLu 1ddLl 1deLu
1dfLl 1e0Lu 1e1Ll 1e2Lu 1e3Ll 1e4Lu 1e5Ll 1e6Lu 1e7Ll 1e8Lu 1e9Ll 1eaLu 1ebLl 1ecLu 1edLl 1eeLu
1f0Ll 1f1Lu 1f2Lt 1f3Ll 1f4Lu 1f5Ll 1f8Lu 1f9Ll 1faLu 1fbLl 1fcLu 1fdLl 1feLu 1ffLl 200Lu 201Ll
202Lu 203Ll 204Lu 205Ll 206Lu 207Ll 208Lu 209Ll 20aLu 20bLl 20cLu 20dLl 20eLu 20fLl 210Lu 211Ll
212Lu 213Ll 214Lu 215Ll 216Lu 217Ll 218Lu 219Ll 21aLu 21bLl 21cLu 21dLl 21eLu 21fLl 220Lu 221Ll
222Lu 223Ll 224Lu 225Ll 226Lu 227Ll 228Lu 229Ll 22aLu 22bLl 22cLu 22dLl 22eLu 22fLl 230Lu 231Ll
232Lu 239Ll 23bLu 23cLl 23eLu 240Ll 241Lu 242Ll 246Lu 247Ll 248Lu 249Ll 24aLu 24bLl 24cLu 24dLl
24eLu 293Ll 295Lo 2afLl 2c1Lm 2c5Sk 2d1Lm 2dfSk 2e4Lm 2ebSk 2ecLm 2edSk 2eeLm 2ffSk 36fMn 370Lu
371Ll 372Lu 373Ll 374Lm 375Sk 376Lu 377Ll 379Cn 37aLm 37dLl 37ePo 37fLu 383Cn 385Sk 386Lu 387Po
38aLu 38bCn 38cLu 38dCn 38fLu 390Ll 3a1Lu 3a2Cn 3abLu 3ceLl 3cfLu 3d1Ll 3d4Lu 3d7Ll 3d8Lu 3d9Ll
3daLu 3dbLl 3dcLu 3ddLl 3deLu 3dfLl 3e0Lu 3e1Ll 3e2Lu 3e3Ll 3e4Lu 3e5Ll 3e6Lu 3e7Ll 3e8Lu 3e9Ll
3eaLu 3ebLl 3ecLu 3edLl 3eeLu 3f3Ll 3f4Lu 3f5Ll 3f6Sm 3f7Lu 3f8Ll 3faLu 3fcLl 42fLu 45fLl 460Lu
461Ll 462Lu 463Ll 464Lu 465Ll 466Lu 467Ll 468Lu 469Ll 46aLu 46bLl 46cLu 46dLl 46eLu 46fLl 470Lu
471Ll 472Lu 473Ll 474Lu 475Ll 476Lu 477Ll 478Lu 479Ll 47aLu 47bLl 47cLu 47dLl 47eLu 47fLl 480Lu
481Ll 482So 487Mn 489Me 48aLu 48bLl 48cLu 48dLl 48eLu 48fLl 490Lu 491Ll 492Lu 493Ll 494Lu 495Ll
496Lu 497Ll 498Lu 499Ll 49aLu 49bLl 49cLu 49dLl 49eLu 49fLl 4a0Lu 4a1Ll 4a2Lu 4a3Ll 4a4Lu 4a5Ll
4a6Lu 4a7Ll 4a8Lu 4a9Ll 4aaLu 4abLl 4acLu 4adLl 4aeLu 4afLl 4b0Lu 4b1Ll 4b2Lu 4b3Ll 4b4Lu 4b5Ll
4b6Lu 4b7Ll 4b8Lu 4b9Ll 4baLu 4bbLl 4bcLu 4bdLl 4beLu 4bfLl 4c1Lu 4c2Ll 4c3Lu 4c4Ll 4c5Lu 4c6Ll
4c7Lu 4c8Ll 4c9Lu 4caLl 4cbLu 4ccLl 4cdLu 4cfLl 4d0Lu 4d1Ll 4d2Lu 4d3Ll 4d4Lu 4d5Ll 4d6Lu 4d7Ll
4d8Lu 4d9Ll 4daLu 4dbLl 4dcLu 4ddLl 4deLu 4dfLl 4e0Lu 4e1Ll 4e2Lu 4e3Ll 4e4Lu 4e5Ll 4e6Lu 4e7Ll
4e8Lu 4e9Ll 4eaLu 4ebLl 4ecLu 4edLl 4eeLu 4efLl 4f0Lu 4f1Ll 4f2Lu 4f3Ll 4f4Lu 4f5Ll 4f6Lu 4f7Ll
4f8Lu 4f9Ll 4faLu 4fbLl 4fcLu 4fdLl 4feLu 4ffLl 500Lu 501Ll 502Lu 503Ll 504Lu 505Ll 506Lu 507Ll
508Lu 509Ll 50aLu 50bLl 50cLu 50dLl 50eLu 50fLl 510Lu 511Ll 512Lu 513Ll 514Lu 515Ll 516Lu 517Ll
518Lu 519Ll 51aLu 51bLl 51cLu 51dLl 51eLu 51fLl 520Lu 521Ll 522Lu 523Ll 524Lu 525Ll 526Lu 527Ll
528Lu 529Ll 52aLu 52bLl 52cLu 52dLl 52eLu 52fLl 530Cn 556Lu 558Cn 559Lm 55fPo 588Ll 589Po 58aPd
58cCn 58eSo 58fSc 590Cn 5bdMn 5bePd 5bfMn 5c0Po 5c2Mn 5c3Po 5c5Mn 5c6Po 5c7Mn 5cfCn 5eaLo 5eeCn
5f2Lo 5f4Po 5ffCn 605Cf 608Sm 60aPo 60bSc 60dPo 60fSo 61aMn 61bPo 61cCf 61fPo 63fLo 640Lm 64aLo
65fMn 669Nd 66dPo 66fLo 670Mn 6d3Lo 6d4Po 6d5Lo 6dcMn 6ddCf 6deSo 6e4Mn 6e6Lm 6e8Mn 6e9So 6edMn
6efLo 6f9Nd 6fcLo 6feSo 6ffLo 70dPo 70eCn 70fCf 710Lo 711Mn 72fLo 74aMn 74cCn 7a5Lo 7b0Mn 7b1Lo
7bfCn 7c9Nd 7eaLo 7f3Mn 7f5Lm 7f6So 7f9Po 7faLm 7fcCn 7fdMn 7ffSc 815Lo 819Mn 81aLm 823Mn 824Lm
827Mn 828Lm 82dMn 82fCn 83ePo 83fCn 858Lo 85bMn 85dCn 85ePo 85fCn 86aLo 86fCn 887Lo 888Sk 88fLo
891Cf 896Cn 89fMn 8c8Lo 8c9Lm 8e1Mn 8e2Cf 902Mn 903Mc 939Lo 93aMn 93bMc 93cMn 93dLo 940Mc 948Mn
94cMc 94dMn 94fMc 950Lo 957Mn 961Lo 963Mn 965Po 96fNd 970Po 971Lm 980Lo 981Mn 983Mc 984Cn 98cLo
98eCn 990Lo 992Cn 9a8Lo 9a9Cn 9b0Lo 9b1Cn 9b2Lo 9b5Cn 9b9Lo 9bbCn 9bcMn 9bdLo 9c0Mc 9c4Mn 9c6Cn
9c8Mc 9caCn 9ccMc 9cdMn 9ceLo 9d6Cn 9d7Mc 9dbCn 9ddLo 9deCn 9e1Lo 9e3Mn 9e5Cn 9efNd 9f1Lo 9f3Sc
9f9No 9faSo 9fbSc 9fcLo 9fdPo 9feMn a00Cn a02Mn a03Mc a04Cn a0aLo a0eCn a10Lo a12Cn a28Lo a29Cn
a30Lo a31Cn a33Lo a34Cn a36Lo a37Cn a39Lo a3bCn a3cMn a3dCn a40Mc a42Mn a46Cn a48Mn a4aCn a4dMn
a50Cn a51Mn a58Cn a5cLo a5dCn a5eLo a65Cn a6fNd a71Mn a74Lo a75Mn a76Po a80Cn a82Mn a83Mc a84Cn
a8dLo a8eCn a91Lo a92Cn aa8Lo aa9Cn ab0Lo ab1Cn ab3Lo ab4Cn ab9Lo abbCn abcMn abdLo ac0Mc ac5Mn
ac6Cn ac8Mn ac9Mc acaCn accMc acdMn acfCn ad0Lo adfCn ae1Lo ae3Mn ae5Cn aefNd af0Po af1Sc af8Cn
af9Lo affMn b00Cn b01Mn b03Mc b04Cn b0cLo b0eCn b10Lo b12Cn b28Lo b29Cn b30Lo b31Cn b33Lo b34Cn
b39Lo b3bCn b3cMn b3dLo b3eMc b3fMn b40Mc b44Mn b46Cn b48Mc b4aCn b4cMc b4dMn b54Cn b56Mn b57Mc
b5bCn b5dLo b5eCn b61Lo b63Mn b65Cn b6fNd b70So b71Lo b77No b81Cn b82Mn b83Lo b84Cn b8aLo b8dCn
b90Lo b91Cn b95Lo b98Cn b9aLo b9bCn b9cLo b9dCn b9fLo ba2Cn ba4Lo ba7Cn baaLo badCn bb9Lo bbdCn
bbfMc bc0Mn bc2Mc bc5Cn bc8Mc bc9Cn bccMc bcdMn bcfCn bd0Lo bd6Cn bd7Mc be5Cn befNd bf2No bf8So
bf9Sc bfaSo bffCn c00Mn c03Mc c04Mn c0cLo c0dCn c10Lo c11Cn c28Lo c29Cn c39Lo c3bCn c3cMn c3dLo
c40Mn c44Mc c45Cn c48Mn c49Cn c4dMn c54Cn c56Mn c57Cn c5aLo c5bCn c5dLo c5fCn c61Lo c63Mn c65Cn
c6fNd c76Cn c77Po c7eNo c7fSo c80Lo c81Mn c83Mc c84Po c8cLo c8dCn c90Lo c91Cn ca8Lo ca9Cn cb3Lo
cb4Cn cb9Lo cbbCn cbcMn cbdLo cbeMc cbfMn cc4Mc cc5Cn cc6Mn cc8Mc cc9Cn ccbMc ccdMn cd4Cn cd6Mc
cdbCn cdeLo cdfCn ce1Lo ce3Mn ce5Cn cefNd cf0Cn cf2Lo cf3Mc cffCn d01Mn d03Mc d0cLo d0dCn d10Lo
d11Cn d3aLo d3cMn d3dLo d40Mc d44Mn d45Cn d48Mc d49Cn d4cMc d4dMn d4eLo d4fSo d53Cn d56Lo d57Mc
d5eNo d61Lo d63Mn d65Cn d6fNd d78No d79So d7fLo d80Cn d81Mn d83Mc d84Cn d96Lo d99Cn db1Lo db2Cn
dbbLo dbcCn dbdLo dbfCn dc6Lo dc9Cn dcaMn dceCn dd1Mc dd4Mn dd5Cn dd6Mn dd7Cn ddfMc de5Cn defNd
df1Cn df3Mc df4Po e00Cn e30Lo e31Mn e33Lo e3aMn e3eCn e3fSc e45Lo e46Lm e4eMn e4fPo e59Nd e5bPo
e80Cn e82Lo e83Cn e84Lo e85Cn e8aLo e8bCn ea3Lo ea4Cn ea5Lo ea6Cn eb0Lo eb1Mn eb3Lo ebcMn ebdLo
ebfCn ec4Lo ec5Cn ec6Lm ec7Cn eceMn ecfCn ed9Nd edbCn edfLo effCn f00Lo f03So f12Po f13So f14Po
f17So f19Mn f1fSo f29Nd f33No f34So f35Mn f36So f37Mn f38So f39Mn f3aPs f3bPe f3cPs f3dPe f3fMc
f47Lo f48Cn f6cLo f70Cn f7eMn f7fMc f84Mn f85Po f87Mn f8cLo f97Mn f98Cn fbcMn fbdCn fc5So fc6Mn
fccSo fcdCn fcfSo fd4Po fd8So fdaPo fffCn 102aLo 102cMc 1030Mn 1031Mc 1037Mn 1038Mc 103aMn 103cMc
103eMn 103fLo 1049Nd 104fPo 1055Lo 1057Mc 1059Mn 105dLo 1060Mn 1061Lo 1064Mc 1066Lo 106dMc 1070Lo
1074Mn 1081Lo 1082Mn 1084Mc 1086Mn 108cMc 108dMn 108eLo 108fMc 1099Nd 109cMc 109dMn 109fSo 10c5Lu
10c6Cn 10c7Lu 10ccCn 10cdLu 10cfCn 10faLl 10fbPo 10fcLm 10ffLl 1248Lo 1249Cn 124dLo 124fCn 1256Lo
1257Cn 1258Lo 1259Cn 125dLo 125fCn 1288Lo 1289Cn 128dLo 128fCn 12b0Lo 12b1Cn 12b5Lo 12b7Cn 12beLo
12bfCn 12c0Lo 12c1Cn 12c5Lo 12c7Cn 12d6Lo 12d7Cn 1310Lo 1311Cn 1315Lo 1317Cn 135aLo 135cCn 135fMn
1368Po 137cNo 137fCn 138fLo 1399So 139fCn 13f5Lu 13f7Cn 13fdLl 13ffCn 1400Pd 166cLo 166dSo 166ePo
167fLo 1680Zs 169aLo 169bPs 169cPe 169fCn 16eaLo 16edPo 16f0Nl 16f8Lo 16ffCn 1711Lo 1714Mn 1715Mc
171eCn 1731Lo 1733Mn 1734Mc 1736Po 173fCn 1751Lo 1753Mn 175fCn 176cLo 176dCn 1770Lo 1771Cn 1773Mn
177fCn 17b3Lo 17b5Mn 17b6Mc 17bdMn 17c5Mc 17c6Mn 17c8Mc 17d3Mn 17d6Po 17d7Lm 17daPo 17dbSc 17dcLo
17ddMn 17dfCn 17e9Nd 17efCn 17f9No 17ffCn 1805Po 1806Pd 180aPo 180dMn 180eCf 180fMn 1819Nd 181fCn
1842Lo 1843Lm 1878Lo 187fCn 1884Lo 1886Mn 18a8Lo 18a9Mn 18aaLo 18afCn 18f5Lo 18ffCn 191eLo 191fCn
1922Mn 1926Mc 1928Mn 192bMc 192fCn 1931Mc 1932Mn 1938Mc 193bMn 193fCn 1940So 1943Cn 1945Po 194fNd
196dLo 196fCn 1974Lo 197fCn 19abLo 19afCn 19c9Lo 19cfCn 19d9Nd 19daNo 19ddCn 19ffSo 1a16Lo 1a18Mn
1a1aMc 1a1bMn 1a1dCn 1a1fPo 1a54Lo 1a55Mc 1a56Mn 1a57Mc 1a5eMn 1a5fCn 1a60Mn 1a61Mc 1a62Mn 1a64Mc
1a6cMn 1a72Mc 1a7cMn 1a7eCn 1a7fMn 1a89Nd 1a8fCn 1a99Nd 1a9fCn 1aa6Po 1aa7Lm 1aadPo 1aafCn 1abdMn
1abeMe 1addMn 1adfCn 1aebMn 1affCn 1b03Mn 1b04Mc 1b33Lo 1b34Mn 1b35Mc 1b3aMn 1b3bMc 1b3cMn 1b41Mc
1b42Mn 1b44Mc 1b4cLo 1b4dCn 1b4fPo 1b59Nd 1b60Po 1b6aSo 1b73Mn 1b7cSo 1b7fPo 1b81Mn 1b82Mc 1ba0Lo
1ba1Mc 1ba5Mn 1ba7Mc 1ba9Mn 1baaMc 1badMn 1bafLo 1bb9Nd 1be5Lo 1be6Mn 1be7Mc 1be9Mn 1becMc 1bedMn
1beeMc 1bf1Mn 1bf3Mc 1bfbCn 1bffPo 1c23Lo 1c2bMc 1c33Mn 1c35Mc 1c37Mn 1c3aCn 1c3fPo 1c49Nd 1c4cCn
1c4fLo 1c59Nd 1c77Lo 1c7dLm 1c7fPo 1c88Ll 1c89Lu 1c8aLl 1c8fCn 1cbaLu 1cbcCn 1cbfLu 1cc7Po 1ccfCn
1cd2Mn 1cd3Po 1ce0Mn 1ce1Mc 1ce8Mn 1cecLo 1cedMn 1cf3Lo 1cf4Mn 1cf6Lo 1cf7Mc 1cf9Mn 1cfaLo 1cffCn
1d2bLl 1d6aLm 1d77Ll 1d78Lm 1d9aLl 1dbfLm 1dffMn 1e00Lu 1e01Ll 1e02Lu 1e03Ll 1e04Lu 1e05Ll 1e06Lu
1e07Ll 1e08Lu 1e09Ll 1e0aLu 1e0bLl 1e0cLu 1e0dLl 1e0eLu 1e0fLl 1e10Lu 1e11Ll 1e12Lu 1e13Ll 1e14Lu
1e15Ll 1e16Lu 1e17Ll 1e18Lu 1e19Ll 1e1aLu 1e1bLl 1e1cLu 1e1dLl 1e1eLu 1e1fLl 1e20Lu 1e21Ll 1e22Lu
1e23Ll 1e24Lu 1e25Ll 1e26Lu 1e27Ll 1e28Lu 1e29Ll 1e2aLu 1e2bLl 1e2cLu 1e2dLl 1e2eLu 1e2fLl 1e30Lu
1e31Ll 1e32Lu 1e33Ll 1e34Lu 1e35Ll 1e36Lu 1e37Ll 1e38Lu 1e39Ll 1e3aLu 1e3bLl 1e3cLu 1e3dLl 1e3eLu
1e3fLl 1e40Lu 1e41Ll 1e42Lu 1e43Ll 1e44Lu 1e45Ll 1e46Lu 1e47Ll 1e48Lu 1e49Ll 1e4aLu 1e4bLl 1e4cLu
1e4dLl 1e4eLu 1e4fLl 1e50Lu 1e51Ll 1e52Lu 1e53Ll 1e54Lu 1e55Ll 1e56Lu 1e57Ll 1e58Lu 1e59Ll 1e5aLu
1e5bLl 1e5cLu 1e5dLl 1e5eLu 1e5fLl 1e60Lu 1e61Ll 1e62Lu 1e63Ll 1e64Lu 1e65Ll 1e66Lu 1e67Ll 1e68Lu
1e69Ll 1e6aLu 1e6bLl 1e6cLu 1e6dLl 1e6eLu 1e6fLl 1e70Lu 1e71Ll 1e72Lu 1e73Ll 1e74Lu 1e75Ll 1e76Lu
1e77Ll 1e78Lu 1e79Ll 1e7aLu 1e7bLl 1e7cLu 1e7dLl 1e7eLu 1e7fLl 1e80Lu 1e81Ll 1e82Lu 1e83Ll 1e84Lu
1e85Ll 1e86Lu 1e87Ll 1e88Lu 1e89Ll 1e8aLu 1e8bLl 1e8cLu 1e8dLl 1e8eLu 1e8fLl 1e90Lu 1e91Ll 1e92Lu
1e93Ll 1e94Lu 1e9dLl 1e9eLu 1e9fLl 1ea0Lu 1ea1Ll 1ea2Lu 1ea3Ll 1ea4Lu 1ea5Ll 1ea6Lu 1ea7Ll 1ea8Lu
1ea9Ll 1eaaLu 1eabLl 1eacLu 1eadLl 1eaeLu 1eafLl 1eb0Lu 1eb1Ll 1eb2Lu 1eb3Ll 1eb4Lu 1eb5Ll 1eb6Lu
1eb7Ll 1eb8Lu 1eb9Ll 1ebaLu 1ebbLl 1ebcLu 1ebdLl 1ebeLu 1ebfLl 1ec0Lu 1ec1Ll 1ec2Lu 1ec3Ll 1ec4Lu
1ec5Ll 1ec6Lu 1ec7Ll 1ec8Lu 1ec9Ll 1ecaLu 1ecbLl 1eccLu 1ecdLl 1eceLu 1ecfLl 1ed0Lu 1ed1Ll 1ed2Lu
1ed3Ll 1ed4Lu 1ed5Ll 1ed6Lu 1ed7Ll 1ed8Lu 1ed9Ll 1edaLu 1edbLl 1edcLu 1eddLl 1edeLu 1edfLl 1ee0Lu
1ee1Ll 1ee2Lu 1ee3Ll 1ee4Lu 1ee5Ll 1ee6Lu 1ee7Ll 1ee8Lu 1ee9Ll 1eeaLu 1eebLl 1eecLu 1eedLl 1eeeLu
1eefLl 1ef0Lu 1ef1Ll 1ef2Lu 1ef3Ll 1ef4Lu 1ef5Ll 1ef6Lu 1ef7Ll 1ef8Lu 1ef9Ll 1efaLu 1efbLl 1efcLu
1efdLl 1efeLu 1f07Ll 1f0fLu 1f15Ll 1f17Cn 1f1dLu 1f1fCn 1f27Ll 1f2fLu 1f37Ll 1f3fLu 1f45Ll 1f47Cn
1f4dLu 1f4fCn 1f57Ll 1f58Cn 1f59Lu 1f5aCn 1f5bLu 1f5cCn 1f5dLu 1f5eCn 1f5fLu 1f67Ll 1f6fLu 1f7dLl
1f7fCn 1f87Ll 1f8fLt 1f97Ll 1f9fLt 1fa7Ll 1fafLt 1fb4Ll 1fb5Cn 1fb7Ll 1fbbLu 1fbcLt 1fbdSk 1fbeLl
1fc1Sk 1fc4Ll 1fc5Cn 1fc7Ll 1fcbLu 1fccLt 1fcfSk 1fd3Ll 1fd5Cn 1fd7Ll 1fdbLu 1fdcCn 1fdfSk 1fe7Ll
1fecLu 1fefSk 1ff1Cn 1ff4Ll 1ff5Cn 1ff7Ll 1ffbLu 1ffcLt 1ffeSk 1fffCn 200aZs 200fCf 2015Pd 2017Po
2018Pi 2019Pf 201aPs 201cPi 201dPf 201ePs 201fPi 2027Po 2028Zl 2029Zp 202eCf 202fZs 2038Po 2039Pi
203aPf 203ePo 2040Pc 2043Po 2044Sm 2045Ps 2046Pe 2051Po 2052Sm 2053Po 2054Pc 205ePo 205fZs 2064Cf
2065Cn 206fCf 2070No 2071Lm 2073Cn 2079No 207cSm 207dPs 207ePe 207fLm 2089No 208cSm 208dPs 208ePe
208fCn 209cLm 209fCn 20c1Sc 20cfCn 20dcMn 20e0Me 20e1Mn 20e4Me 20f0Mn 20ffCn 2101So 2102Lu 2106So
2107Lu 2109So 210aLl 210dLu 210fLl 2112Lu 2113Ll 2114So 2115Lu 2117So 2118Sm 211dLu 2123So 2124Lu
2125So 2126Lu 2127So 2128Lu 2129So 212dLu 212eSo 212fLl 2133Lu 2134Ll 2138Lo 2139Ll 213bSo 213dLl
213fLu 2144Sm 2145Lu 2149Ll 214aSo 214bSm 214dSo 214eLl 214fSo 215fNo 2182Nl 2183Lu 2184Ll 2188Nl
2189No 218bSo 218fCn 2194Sm 2199So 219bSm 219fSo 21a0Sm 21a2So 21a3Sm 21a5So 21a6Sm 21adSo 21aeSm
21cdSo 21cfSm 21d1So 21d2Sm 21d3So 21d4Sm 21f3So 22ffSm 2307So 2308Ps 2309Pe 230aPs 230bPe 231fSo
2321Sm 2328So 2329Ps 232aPe 237bSo 237cSm 239aSo 23b3Sm 23dbSo 23e1Sm 2429So 243fCn 244aSo 245fCn
249bNo 24e9So 24ffNo 25b6So 25b7Sm 25c0So 25c1Sm 25f7So 25ffSm 266eSo 266fSm 2767So 2768Ps 2769Pe
276aPs 276bPe 276cPs 276dPe 276ePs 276fPe 2770Ps 2771Pe 2772Ps 2773Pe 2774Ps 2775Pe 2793No 27bfSo
27c4Sm 27c5Ps 27c6Pe 27e5Sm 27e6Ps 27e7Pe 27e8Ps 27e9Pe 27eaPs 27ebPe 27ecPs 27edPe 27eePs 27efPe
27ffSm 28ffSo 2982Sm 2983Ps 2984Pe 2985Ps 2986Pe 2987Ps 2988Pe 2989Ps 298aPe 298bPs 298cPe 298dPs
298ePe 298fPs 2990Pe 2991Ps 2992Pe 2993Ps 2994Pe 2995Ps 2996Pe 2997Ps 2998Pe 29d7Sm 29d8Ps 29d9Pe
29daPs 29dbPe 29fbSm 29fcPs 29fdPe 2affSm 2b2fSo 2b44Sm 2b46So 2b4cSm 2b73So 2b75Cn 2bffSo 2c2fLu
2c5fLl 2c60Lu 2c61Ll 2c64Lu 2c66Ll 2c67Lu 2c68Ll 2c69Lu 2c6aLl 2c6bLu 2c6cLl 2c70Lu 2c71Ll 2c72Lu
2c74Ll 2c75Lu 2c7bLl 2c7dLm 2c80Lu 2c81Ll 2c82Lu 2c83Ll 2c84Lu 2c85Ll 2c86Lu 2c87Ll 2c88Lu 2c89Ll
2c8aLu 2c8bLl 2c8cLu 2c8dLl 2c8eLu 2c8fLl 2c90Lu 2c91Ll 2c92Lu 2c93Ll 2c94Lu 2c95Ll 2c96Lu 2c97Ll
2c98Lu 2c99Ll 2c9aLu 2c9bLl 2c9cLu 2c9dLl 2c9eLu 2c9fLl 2ca0Lu 2ca1Ll 2ca2Lu 2ca3Ll 2ca4Lu 2ca5Ll
2ca6Lu 2ca7Ll 2ca8Lu 2ca9Ll 2caaLu 2cabLl 2cacLu 2cadLl 2caeLu 2cafLl 2cb0Lu 2cb1Ll 2cb2Lu 2cb3Ll
2cb4Lu 2cb5Ll 2cb6Lu 2cb7Ll 2cb8Lu 2cb9Ll 2cbaLu 2cbbLl 2cbcLu 2cbdLl 2cbeLu 2cbfLl 2cc0Lu 2cc1Ll
2cc2Lu 2cc3Ll 2cc4Lu 2cc5Ll 2cc6Lu 2cc7Ll 2cc8Lu 2cc9Ll 2ccaLu 2ccbLl 2cccLu 2ccdLl 2cceLu 2ccfLl
2cd0Lu 2cd1Ll 2cd2Lu 2cd3Ll 2cd4Lu 2cd5Ll 2cd6Lu 2cd7Ll 2cd8Lu 2cd9Ll 2cdaLu 2cdbLl 2cdcLu 2cddLl
2cdeLu 2cdfLl 2ce0Lu 2ce1Ll 2ce2Lu 2ce4Ll 2ceaSo 2cebLu 2cecLl 2cedLu 2ceeLl 2cf1Mn 2cf2Lu 2cf3Ll
2cf8Cn 2cfcPo 2cfdNo 2cffPo 2d25Ll 2d26Cn 2d27Ll 2d2cCn 2d2dLl 2d2fCn 2d67Lo 2d6eCn 2d6fLm 2d70Po
2d7eCn 2d7fMn 2d96Lo 2d9fCn 2da6Lo 2da7Cn 2daeLo 2dafCn 2db6Lo 2db7Cn 2dbeLo 2dbfCn 2dc6Lo 2dc7Cn
2dceLo 2dcfCn 2dd6Lo 2dd7Cn 2ddeLo 2ddfCn 2dffMn 2e01Po 2e02Pi 2e03Pf 2e04Pi 2e05Pf 2e08Po 2e09Pi
2e0aPf 2e0bPo 2e0cPi 2e0dPf 2e16Po 2e17Pd 2e19Po 2e1aPd 2e1bPo 2e1cPi 2e1dPf 2e1fPo 2e20Pi 2e21Pf
2e22Ps 2e23Pe 2e24Ps 2e25Pe 2e26Ps 2e27Pe 2e28Ps 2e29Pe 2e2ePo 2e2fLm 2e39Po 2e3bPd 2e3fPo 2e40Pd
2e41Po 2e42Ps 2e4fPo 2e51So 2e54Po 2e55Ps 2e56Pe 2e57Ps 2e58Pe 2e59Ps 2e5aPe 2e5bPs 2e5cPe 2e5dPd
2e7fCn 2e99So 2e9aCn 2ef3So 2effCn 2fd5So 2fefCn 2fffSo 3000Zs 3003Po 3004So 3005Lm 3006Lo 3007Nl
3008Ps 3009Pe 300aPs 300bPe 300cPs 300dPe 300ePs 300fPe 3010Ps 3011Pe 3013So 3014Ps 3015Pe 3016Ps
3017Pe 3018Ps 3019Pe 301aPs 301bPe 301cPd 301dPs 301fPe 3020So 3029Nl 302dMn 302fMc 3030Pd 3035Lm
3037So 303aNl 303bLm 303cLo 303dPo 303fSo 3040Cn 3096Lo 3098Cn 309aMn 309cSk 309eLm 309fLo 30a0Pd
30faLo 30fbPo 30feLm 30ffLo 3104Cn 312fLo 3130Cn 318eLo 318fCn 3191So 3195No 319fSo 31bfLo 31e5So
31eeCn 31efSo 31ffLo 321eSo 321fCn 3229No 3247So 324fNo 3250So 325fNo 327fSo 3289No 32b0So 32bfNo
33ffSo 4dbfLo 4dffSo a014Lo a015Lm a48cLo a48fCn a4c6So a4cfCn a4f7Lo a4fdLm a4ffPo a60bLo a60cLm
a60fPo a61fLo a629Nd a62bLo a63fCn a640Lu a641Ll a642Lu a643Ll a644Lu a645Ll a646Lu a647Ll a648Lu
a649Ll a64aLu a64bLl a64cLu a64dLl a64eLu a64fLl a650Lu a651Ll a652Lu a653Ll a654Lu a655Ll a656Lu
a657Ll a658Lu a659Ll a65aLu a65bLl a65cLu a65dLl a65eLu a65fLl a660Lu a661Ll a662Lu a663Ll a664Lu
a665Ll a666Lu a667Ll a668Lu a669Ll a66aLu a66bLl a66cLu a66dLl a66eLo a66fMn a672Me a673Po a67dMn
a67ePo a67fLm a680Lu a681Ll a682Lu a683Ll a684Lu a685Ll a686Lu a687Ll a688Lu a689Ll a68aLu a68bLl
a68cLu a68dLl a68eLu a68fLl a690Lu a691Ll a692Lu a693Ll a694Lu a695Ll a696Lu a697Ll a698Lu a699Ll
a69aLu a69bLl a69dLm a69fMn a6e5Lo a6efNl a6f1Mn a6f7Po a6ffCn a716Sk a71fLm a721Sk a722Lu a723Ll
a724Lu a725Ll a726Lu a727Ll a728Lu a729Ll a72aLu a72bLl a72cLu a72dLl a72eLu a731Ll a732Lu a733Ll
a734Lu a735Ll a736Lu a737Ll a738Lu a739Ll a73aLu a73bLl a73cLu a73dLl a73eLu a73fLl a740Lu a741Ll
a742Lu a743Ll a744Lu a745Ll a746Lu a747Ll a748Lu a749Ll a74aLu a74bLl a74cLu a74dLl a74eLu a74fLl
a750Lu a751Ll a752Lu a753Ll a754Lu a755Ll a756Lu a757Ll a758Lu a759Ll a75aLu a75bLl a75cLu a75dLl
a75eLu a75fLl a760Lu a761Ll a762Lu a763Ll a764Lu a765Ll a766Lu a767Ll a768Lu a769Ll a76aLu a76bLl
a76cLu a76dLl a76eLu a76fLl a770Lm a778Ll a779Lu a77aLl a77bLu a77cLl a77eLu a77fLl a780Lu a781Ll
a782Lu a783Ll a784Lu a785Ll a786Lu a787Ll a788Lm a78aSk a78bLu a78cLl a78dLu a78eLl a78fLo a790Lu
a791Ll a792Lu a795Ll a796Lu a797Ll a798Lu a799Ll a79aLu a79bLl a79cLu a79dLl a79eLu a79fLl a7a0Lu
a7a1Ll a7a2Lu a7a3Ll a7a4Lu a7a5Ll a7a6Lu a7a7Ll a7a8Lu a7a9Ll a7aeLu a7afLl a7b4Lu a7b5Ll a7b6Lu
a7b7Ll a7b8Lu a7b9Ll a7baLu a7bbLl a7bcLu a7bdLl a7beLu a7bfLl a7c0Lu a7c1Ll a7c2Lu a7c3Ll a7c7Lu
a7c8Ll a7c9Lu a7caLl a7ccLu a7cdLl a7ceLu a7cfLl a7d0Lu a7d1Ll a7d2Lu a7d3Ll a7d4Lu a7d5Ll a7d6Lu
a7d7Ll a7d8Lu a7d9Ll a7daLu a7dbLl a7dcLu a7f0Cn a7f4Lm a7f5Lu a7f6Ll a7f7Lo a7f9Lm a7faLl a801Lo
a802Mn a805Lo a806Mn a80aLo a80bMn a822Lo a824Mc a826Mn a827Mc a82bSo a82cMn a82fCn a835No a837So
a838Sc a839So a83fCn a873Lo a877Po a87fCn a881Mc a8b3Lo a8c3Mc a8c5Mn a8cdCn a8cfPo a8d9Nd a8dfCn
a8f1Mn a8f7Lo a8faPo a8fbLo a8fcPo a8feLo a8ffMn a909Nd a925Lo a92dMn a92fPo a946Lo a951Mn a953Mc
a95eCn a95fPo a97cLo a97fCn a982Mn a983Mc a9b2Lo a9b3Mn a9b5Mc a9b9Mn a9bbMc a9bdMn a9c0Mc a9cdPo
a9ceCn a9cfLm a9d9Nd a9ddCn a9dfPo a9e4Lo a9e5Mn a9e6Lm a9efLo a9f9Nd a9feLo a9ffCn aa28Lo aa2eMn
aa30Mc aa32Mn aa34Mc aa36Mn aa3fCn aa42Lo aa43Mn aa4bLo aa4cMn aa4dMc aa4fCn aa59Nd aa5bCn aa5fPo
aa6fLo aa70Lm aa76Lo aa79So aa7aLo aa7bMc aa7cMn aa7dMc aaafLo aab0Mn aab1Lo aab4Mn aab6Lo aab8Mn
aabdLo aabfMn aac0Lo aac1Mn aac2Lo aadaCn aadcLo aaddLm aadfPo aaeaLo aaebMc aaedMn aaefMc aaf1Po
aaf2Lo aaf4Lm aaf5Mc aaf6Mn ab00Cn ab06Lo ab08Cn ab0eLo ab10Cn ab16Lo ab1fCn ab26Lo ab27Cn ab2eLo
ab2fCn ab5aLl ab5bSk ab5fLm ab68Ll ab69Lm ab6bSk ab6fCn abbfLl abe2Lo abe4Mc abe5Mn abe7Mc abe8Mn
abeaMc abebPo abecMc abedMn abefCn abf9Nd abffCn d7a3Lo d7afCn d7c6Lo d7caCn d7fbLo d7ffCn dfffCs
f8ffCo fa6dLo fa6fCn fad9Lo faffCn fb06Ll fb12Cn fb17Ll fb1cCn fb1dLo fb1eMn fb28Lo fb29Sm fb36Lo
fb37Cn fb3cLo fb3dCn fb3eLo fb3fCn fb41Lo fb42Cn fb44Lo fb45Cn fbb1Lo fbc2Sk fbd2So fd3dLo fd3ePe
fd3fPs fd4fSo fd8fLo fd91So fdc7Lo fdcfSo fdefCn fdfbLo fdfcSc fdffSo fe0fMn fe16Po fe17Ps fe18Pe
fe19Po fe1fCn fe2fMn fe30Po fe32Pd fe34Pc fe35Ps fe36Pe fe37Ps fe38Pe fe39Ps fe3aPe fe3bPs fe3cPe
fe3dPs fe3ePe fe3fPs fe40Pe fe41Ps fe42Pe fe43Ps fe44Pe fe46Po fe47Ps fe48Pe fe4cPo fe4fPc fe52Po
fe53Cn fe57Po fe58Pd fe59Ps fe5aPe fe5bPs fe5cPe fe5dPs fe5ePe fe61Po fe62Sm fe63Pd fe66Sm fe67Cn
fe68Po fe69Sc fe6bPo fe6fCn fe74Lo fe75Cn fefcLo fefeCn feffCf ff00Cn ff03Po ff04Sc ff07Po ff08Ps
ff09Pe ff0aPo ff0bSm ff0cPo ff0dPd ff0fPo ff19Nd ff1bPo ff1eSm ff20Po ff3aLu ff3bPs ff3cPo ff3dPe
ff3eSk ff3fPc ff40Sk ff5aLl ff5bPs ff5cSm ff5dPe ff5eSm ff5fPs ff60Pe ff61Po ff62Ps ff63Pe ff65Po
ff6fLo ff70Lm ff9dLo ff9fLm ffbeLo ffc1Cn ffc7Lo ffc9Cn ffcfLo ffd1Cn ffd7Lo ffd9Cn ffdcLo ffdfCn
ffe1Sc ffe2Sm ffe3Sk ffe4So ffe6Sc ffe7Cn ffe8So ffecSm ffeeSo fff8Cn fffbCf fffdSo ffffCn 1000bLo
1000cCn 10026Lo 10027Cn 1003aLo 1003bCn 1003dLo 1003eCn 1004dLo 1004fCn 1005dLo 1007fCn 100faLo
100ffCn 10102Po 10106Cn 10133No 10136Cn 1013fSo 10174Nl 10178No 10189So 1018bNo 1018eSo 1018fCn
1019cSo 1019fCn 101a0So 101cfCn 101fcSo 101fdMn 1027fCn 1029cLo 1029fCn 102d0Lo 102dfCn 102e0Mn
102fbNo 102ffCn 1031fLo 10323No 1032cCn 10340Lo 10341Nl 10349Lo 1034aNl 1034fCn 10375Lo 1037aMn
1037fCn 1039dLo 1039eCn 1039fPo 103c3Lo 103c7Cn 103cfLo 103d0Po 103d5Nl 103ffCn 10427Lu 1044fLl
1049dLo 1049fCn 104a9Nd 104afCn 104d3Lu 104d7Cn 104fbLl 104ffCn 10527Lo 1052fCn 10563Lo 1056eCn
1056fPo 1057aLu 1057bCn 1058aLu 1058bCn 10592Lu 10593Cn 10595Lu 10596Cn 105a1Ll 105a2Cn 105b1Ll
105b2Cn 105b9Ll 105baCn 105bcLl 105bfCn 105f3Lo 105ffCn 10736Lo 1073fCn 10755Lo 1075fCn 10767Lo
1077fCn 10785Lm 10786Cn 107b0Lm 107b1Cn 107baLm 107ffCn 10805Lo 10807Cn 10808Lo 10809Cn 10835Lo
10836Cn 10838Lo 1083bCn 1083cLo 1083eCn 10855Lo 10856Cn 10857Po 1085fNo 10876Lo 10878So 1087fNo
1089eLo 108a6Cn 108afNo 108dfCn 108f2Lo 108f3Cn 108f5Lo 108faCn 108ffNo 10915Lo 1091bNo 1091eCn
1091fPo 10939Lo 1093eCn 1093fPo 10959Lo 1097fCn 109b7Lo 109bbCn 109bdNo 109bfLo 109cfNo 109d1Cn
109ffNo 10a00Lo 10a03Mn 10a04Cn 10a06Mn 10a0bCn 10a0fMn 10a13Lo 10a14Cn 10a17Lo 10a18Cn 10a35Lo
10a37Cn 10a3aMn 10a3eCn 10a3fMn 10a48No 10a4fCn 10a58Po 10a5fCn 10a7cLo 10a7eNo 10a7fPo 10a9cLo
10a9fNo 10abfCn 10ac7Lo 10ac8So 10ae4Lo 10ae6Mn 10aeaCn 10aefNo 10af6Po 10affCn 10b35Lo 10b38Cn
10b3fPo 10b55Lo 10b57Cn 10b5fNo 10b72Lo 10b77Cn 10b7fNo 10b91Lo 10b98Cn 10b9cPo 10ba8Cn 10bafNo
10bffCn 10c48Lo 10c7fCn 10cb2Lu 10cbfCn 10cf2Ll 10cf9Cn 10cffNo 10d23Lo 10d27Mn 10d2fCn 10d39Nd
10d3fCn 10d49Nd 10d4dLo 10d4eLm 10d4fLo 10d65Lu 10d68Cn 10d6dMn 10d6ePd 10d6fLm 10d85Ll 10d8dCn
10d8fSm 10e5fCn 10e7eNo 10e7fCn 10ea9Lo 10eaaCn 10eacMn 10eadPd 10eafCn 10eb1Lo 10ec1Cn 10ec4Lo
10ec5Lm 10ec7Lo 10ecfCn 10ed0Po 10ed8So 10ef9Cn 10effMn 10f1cLo 10f26No 10f27Lo 10f2fCn 10f45Lo
10f50Mn 10f54No 10f59Po 10f6fCn 10f81Lo 10f85Mn 10f89Po 10fafCn 10fc4Lo 10fcbNo 10fdfCn 10ff6Lo
10fffCn 11000Mc 11001Mn 11002Mc 11037Lo 11046Mn 1104dPo 11051Cn 11065No 1106fNd 11070Mn 11072Lo
11074Mn 11075Lo 1107eCn 11081Mn 11082Mc 110afLo 110b2Mc 110b6Mn 110b8Mc 110baMn 110bcPo 110bdCf
110c1Po 110c2Mn 110ccCn 110cdCf 110cfCn 110e8Lo 110efCn 110f9Nd 110ffCn 11102Mn 11126Lo 1112bMn
1112cMc 11134Mn 11135Cn 1113fNd 11143Po 11144Lo 11146Mc 11147Lo 1114fCn 11172Lo 11173Mn 11175Po
11176Lo 1117fCn 11181Mn 11182Mc 111b2Lo 111b5Mc 111beMn 111c0Mc 111c4Lo 111c8Po 111ccMn 111cdPo
111ceMc 111cfMn 111d9Nd 111daLo 111dbPo 111dcLo 111dfPo 111e0Cn 111f4No 111ffCn 11211Lo 11212Cn
1122bLo 1122eMc 11231Mn 11233Mc 11234Mn 11235Mc 11237Mn 1123dPo 1123eMn 11240Lo 11241Mn 1127fCn
11286Lo 11287Cn 11288Lo 11289Cn 1128dLo 1128eCn 1129dLo 1129eCn 112a8Lo 112a9Po 112afCn 112deLo
112dfMn 112e2Mc 112eaMn 112efCn 112f9Nd 112ffCn 11301Mn 11303Mc 11304Cn 1130cLo 1130eCn 11310Lo
11312Cn 11328Lo 11329Cn 11330Lo 11331Cn 11333Lo 11334Cn 11339Lo 1133aCn 1133cMn 1133dLo 1133fMc
11340Mn 11344Mc 11346Cn 11348Mc 1134aCn 1134dMc 1134fCn 11350Lo 11356Cn 11357Mc 1135cCn 11361Lo
11363Mc 11365Cn 1136cMn 1136fCn 11374Mn 1137fCn 11389Lo 1138aCn 1138bLo 1138dCn 1138eLo 1138fCn
113b5Lo 113b6Cn 113b7Lo 113baMc 113c0Mn 113c1Cn 113c2Mc 113c4Cn 113c5Mc 113c6Cn 113caMc 113cbCn
113cdMc 113ceMn 113cfMc 113d0Mn 113d1Lo 113d2Mn 113d3Lo 113d5Po 113d6Cn 113d8Po 113e0Cn 113e2Mn
113ffCn 11434Lo 11437Mc 1143fMn 11441Mc 11444Mn 11445Mc 11446Mn 1144aLo 1144fPo 11459Nd 1145bPo
1145cCn 1145dPo 1145eMn 11461Lo 1147fCn 114afLo 114b2Mc 114b8Mn 114b9Mc 114baMn 114beMc 114c0Mn
114c1Mc 114c3Mn 114c5Lo 114c6Po 114c7Lo 114cfCn 114d9Nd 1157fCn 115aeLo 115b1Mc 115b5Mn 115b7Cn
115bbMc 115bdMn 115beMc 115c0Mn 115d7Po 115dbLo 115ddMn 115ffCn 1162fLo 11632Mc 1163aMn 1163cMc
1163dMn 1163eMc 11640Mn 11643Po 11644Lo 1164fCn 11659Nd 1165fCn 1166cPo 1167fCn 116aaLo 116abMn
116acMc 116adMn 116afMc 116b5Mn 116b6Mc 116b7Mn 116b8Lo 116b9Po 116bfCn 116c9Nd 116cfCn 116e3Nd
116ffCn 1171aLo 1171cCn 1171dMn 1171eMc 1171fMn 11721Mc 11725Mn 11726Mc 1172bMn 1172fCn 11739Nd
1173bNo 1173ePo 1173fSo 11746Lo 117ffCn 1182bLo 1182eMc 11837Mn 11838Mc 1183aMn 1183bPo 1189fCn
118bfLu 118dfLl 118e9Nd 118f2No 118feCn 11906Lo 11908Cn 11909Lo 1190bCn 11913Lo 11914Cn 11916Lo
11917Cn 1192fLo 11935Mc 11936Cn 11938Mc 1193aCn 1193cMn 1193dMc 1193eMn 1193fLo 11940Mc 11941Lo
11942Mc 11943Mn 11946Po 1194fCn 11959Nd 1199fCn 119a7Lo 119a9Cn 119d0Lo 119d3Mc 119d7Mn 119d9Cn
119dbMn 119dfMc 119e0Mn 119e1Lo 119e2Po 119e3Lo 119e4Mc 119ffCn 11a00Lo 11a0aMn 11a32Lo 11a38Mn
11a39Mc 11a3aLo 11a3eMn 11a46Po 11a47Mn 11a4fCn 11a50Lo 11a56Mn 11a58Mc 11a5bMn 11a89Lo 11a96Mn
11a97Mc 11a99Mn 11a9cPo 11a9dLo 11aa2Po 11aafCn 11af8Lo 11affCn 11b09Po 11b5fCn 11b60Mn 11b61Mc
11b64Mn 11b65Mc 11b66Mn 11b67Mc 11bbfCn 11be0Lo 11be1Po 11befCn 11bf9Nd 11bffCn 11c08Lo 11c09Cn
11c2eLo 11c2fMc 11c36Mn 11c37Cn 11c3dMn 11c3eMc 11c3fMn 11c40Lo 11c45Po 11c4fCn 11c59Nd 11c6cNo
11c6fCn 11c71Po 11c8fLo 11c91Cn 11ca7Mn 11ca8Cn 11ca9Mc 11cb0Mn 11cb1Mc 11cb3Mn 11cb4Mc 11cb6Mn
11cffCn 11d06Lo 11d07Cn 11d09Lo 11d0aCn 11d30Lo 11d36Mn 11d39Cn 11d3aMn 11d3bCn 11d3dMn 11d3eCn
11d45Mn 11d46Lo 11d47Mn 11d4fCn 11d59Nd 11d5fCn 11d65Lo 11d66Cn 11d68Lo 11d69Cn 11d89Lo 11d8eMc
11d8fCn 11d91Mn 11d92Cn 11d94Mc 11d95Mn 11d96Mc 11d97Mn 11d98Lo 11d9fCn 11da9Nd 11dafCn 11dd8Lo
11dd9Lm 11ddbLo 11ddfCn 11de9Nd 11edfCn 11ef2Lo 11ef4Mn 11ef6Mc 11ef8Po 11effCn 11f01Mn 11f02Lo
11f03Mc 11f10Lo 11f11Cn 11f33Lo 11f35Mc 11f3aMn 11f3dCn 11f3fMc 11f40Mn 11f41Mc 11f42Mn 11f4fPo
11f59Nd 11f5aMn 11fafCn 11fb0Lo 11fbfCn 11fd4No 11fdcSo 11fe0Sc 11ff1So 11ffeCn 11fffPo 12399Lo
123ffCn 1246eNl 1246fCn 12474Po 1247fCn 12543Lo 12f8fCn 12ff0Lo 12ff2Po 12fffCn 1342fLo 1343fCf
13440Mn 13446Lo 13455Mn 1345fCn 143faLo 143ffCn 14646Lo 160ffCn 1611dLo 16129Mn 1612cMc 1612fMn
16139Nd 167ffCn 16a38Lo 16a3fCn 16a5eLo 16a5fCn 16a69Nd 16a6dCn 16a6fPo 16abeLo 16abfCn 16ac9Nd
16acfCn 16aedLo 16aefCn 16af4Mn 16af5Po 16affCn 16b2fLo 16b36Mn 16b3bPo 16b3fSo 16b43Lm 16b44Po
16b45So 16b4fCn 16b59Nd 16b5aCn 16b61No 16b62Cn 16b77Lo 16b7cCn 16b8fLo 16d3fCn 16d42Lm 16d6aLo
16d6cLm 16d6fPo 16d79Nd 16e3fCn 16e5fLu 16e7fLl 16e96No 16e9aPo 16e9fCn 16eb8Lu 16ebaCn 16ed3Ll
16effCn 16f4aLo 16f4eCn 16f4fMn 16f50Lo 16f87Mc 16f8eCn 16f92Mn 16f9fLm 16fdfCn 16fe1Lm 16fe2Po
16fe3Lm 16fe4Mn 16fefCn 16ff1Mc 16ff3Lm 16ff6Nl 16fffCn 18cd5Lo 18cfeCn 18d1eLo 18d7fCn 18df2Lo
1afefCn 1aff3Lm 1aff4Cn 1affbLm 1affcCn 1affeLm 1afffCn 1b122Lo 1b131Cn 1b132Lo 1b14fCn 1b152Lo
1b154Cn 1b155Lo 1b163Cn 1b167Lo 1b16fCn 1b2fbLo 1bbffCn 1bc6aLo 1bc6fCn 1bc7cLo 1bc7fCn 1bc88Lo
1bc8fCn 1bc99Lo 1bc9bCn 1bc9cSo 1bc9eMn 1bc9fPo 1bca3Cf 1cbffCn 1ccefSo 1ccf9Nd 1ccfcSo 1ccffCn
1ceb3So 1ceb9Cn 1ced0So 1cedfCn 1ceefSo 1cef0Sm 1ceffCn 1cf2dMn 1cf2fCn 1cf46Mn 1cf4fCn 1cfc3So
1cfffCn 1d0f5So 1d0ffCn 1d126So 1d128Cn 1d164So 1d166Mc 1d169Mn 1d16cSo 1d172Mc 1d17aCf 1d182Mn
1d184So 1d18bMn 1d1a9So 1d1adMn 1d1eaSo 1d1ffCn 1d241So 1d244Mn 1d245So 1d2bfCn 1d2d3No 1d2dfCn
1d2f3No 1d2ffCn 1d356So 1d35fCn 1d378No 1d3ffCn 1d419Lu 1d433Ll 1d44dLu 1d454Ll 1d455Cn 1d467Ll
1d481Lu 1d49bLl 1d49cLu 1d49dCn 1d49fLu 1d4a1Cn 1d4a2Lu 1d4a4Cn 1d4a6Lu 1d4a8Cn 1d4acLu 1d4adCn
1d4b5Lu 1d4b9Ll 1d4baCn 1d4bbLl 1d4bcCn 1d4c3Ll 1d4c4Cn 1d4cfLl 1d4e9Lu 1d503Ll 1d505Lu 1d506Cn
1d50aLu 1d50cCn 1d514Lu 1d515Cn 1d51cLu 1d51dCn 1d537Ll 1d539Lu 1d53aCn 1d53eLu 1d53fCn 1d544Lu
1d545Cn 1d546Lu 1d549Cn 1d550Lu 1d551Cn 1d56bLl 1d585Lu 1d59fLl 1d5b9Lu 1d5d3Ll 1d5edLu 1d607Ll
1d621Lu 1d63bLl 1d655Lu 1d66fLl 1d689Lu 1d6a5Ll 1d6a7Cn 1d6c0Lu 1d6c1Sm 1d6daLl 1d6dbSm 1d6e1Ll
1d6faLu 1d6fbSm 1d714Ll 1d715Sm 1d71bLl 1d734Lu 1d735Sm 1d74eLl 1d74fSm 1d755Ll 1d76eLu 1d76fSm
1d788Ll 1d789Sm 1d78fLl 1d7a8Lu 1d7a9Sm 1d7c2Ll 1d7c3Sm 1d7c9Ll 1d7caLu 1d7cbLl 1d7cdCn 1d7ffNd
1d9ffSo 1da36Mn 1da3aSo 1da6cMn 1da74So 1da75Mn 1da83So 1da84Mn 1da86So 1da8bPo 1da9aCn 1da9fMn
1daa0Cn 1daafMn 1deffCn 1df09Ll 1df0aLo 1df1eLl 1df24Cn 1df2aLl 1dfffCn 1e006Mn 1e007Cn 1e018Mn
1e01aCn 1e021Mn 1e022Cn 1e024Mn 1e025Cn 1e02aMn 1e02fCn 1e06dLm 1e08eCn 1e08fMn 1e0ffCn 1e12cLo
1e12fCn 1e136Mn 1e13dLm 1e13fCn 1e149Nd 1e14dCn 1e14eLo 1e14fSo 1e28fCn 1e2adLo 1e2aeMn 1e2bfCn
1e2ebLo 1e2efMn 1e2f9Nd 1e2feCn 1e2ffSc 1e4cfCn 1e4eaLo 1e4ebLm 1e4efMn 1e4f9Nd 1e5cfCn 1e5edLo
1e5efMn 1e5f0Lo 1e5faNd 1e5feCn 1e5ffPo 1e6bfCn 1e6deLo 1e6dfCn 1e6e2Lo 1e6e3Mn 1e6e5Lo 1e6e6Mn
1e6edLo 1e6efMn 1e6f4Lo 1e6f5Mn 1e6fdCn 1e6feLo 1e6ffLm 1e7dfCn 1e7e6Lo 1e7e7Cn 1e7ebLo 1e7ecCn
1e7eeLo 1e7efCn 1e7feLo 1e7ffCn 1e8c4Lo 1e8c6Cn 1e8cfNo 1e8d6Mn 1e8ffCn 1e921Lu 1e943Ll 1e94aMn
1e94bLm 1e94fCn 1e959Nd 1e95dCn 1e95fPo 1ec70Cn 1ecabNo 1ecacSo 1ecafNo 1ecb0Sc 1ecb4No 1ed00Cn
1ed2dNo 1ed2eSo 1ed3dNo 1edffCn 1ee03Lo 1ee04Cn 1ee1fLo 1ee20Cn 1ee22Lo 1ee23Cn 1ee24Lo 1ee26Cn
1ee27Lo 1ee28Cn 1ee32Lo 1ee33Cn 1ee37Lo 1ee38Cn 1ee39Lo 1ee3aCn 1ee3bLo 1ee41Cn 1ee42Lo 1ee46Cn
1ee47Lo 1ee48Cn 1ee49Lo 1ee4aCn 1ee4bLo 1ee4cCn 1ee4fLo 1ee50Cn 1ee52Lo 1ee53Cn 1ee54Lo 1ee56Cn
1ee57Lo 1ee58Cn 1ee59Lo 1ee5aCn 1ee5bLo 1ee5cCn 1ee5dLo 1ee5eCn 1ee5fLo 1ee60Cn 1ee62Lo 1ee63Cn
1ee64Lo 1ee66Cn 1ee6aLo 1ee6bCn 1ee72Lo 1ee73Cn 1ee77Lo 1ee78Cn 1ee7cLo 1ee7dCn 1ee7eLo 1ee7fCn
1ee89Lo 1ee8aCn 1ee9bLo 1eea0Cn 1eea3Lo 1eea4Cn 1eea9Lo 1eeaaCn 1eebbLo 1eeefCn 1eef1Sm 1efffCn
1f02bSo 1f02fCn 1f093So 1f09fCn 1f0aeSo 1f0b0Cn 1f0bfSo 1f0c0Cn 1f0cfSo 1f0d0Cn 1f0f5So 1f0ffCn
1f10cNo 1f1adSo 1f1e5Cn 1f202So 1f20fCn 1f23bSo 1f23fCn 1f248So 1f24fCn 1f251So 1f25fCn 1f265So
1f2ffCn 1f3faSo 1f3ffSk 1f6d8So 1f6dbCn 1f6ecSo 1f6efCn 1f6fcSo 1f6ffCn 1f7d9So 1f7dfCn 1f7ebSo
1f7efCn 1f7f0So 1f7ffCn 1f80bSo 1f80fCn 1f847So 1f84fCn 1f859So 1f85fCn 1f887So 1f88fCn 1f8adSo
1f8afCn 1f8bbSo 1f8bfCn 1f8c1So 1f8cfCn 1f8d8Sm 1f8ffCn 1fa57So 1fa5fCn 1fa6dSo 1fa6fCn 1fa7cSo
1fa7fCn 1fa8aSo 1fa8dCn 1fac6So 1fac7Cn 1fac8So 1faccCn 1fadcSo 1fadeCn 1faeaSo 1faeeCn 1faf8So
1faffCn 1fb92So 1fb93Cn 1fbefSo 1fbf9Nd 1fbfaSo 1ffffCn 2a6dfLo 2a6ffCn 2b81dLo 2b81fCn 2ceadLo
2ceafCn 2ebe0Lo 2ebefCn 2ee5dLo 2f7ffCn 2fa1dLo 2ffffCn 3134aLo 3134fCn 33479Lo e0000Cn e0001Cf
e001fCn e007fCf e00ffCn e01efMn effffCn ffffdCo fffffCn 10fffdCo 10ffffCn"

/-- The runs as pairs of last code point and category, in ascending order. -/
def runs : Array (Nat × Category) :=
  (Runs.ofText runsText).map fun (last, code) => (last, (codes.lookup code).getD cn)

end Category

/-- The general category of a character. -/
def category (c : Char) : Category := (Runs.find? Category.runs c.toNat).getD .cn

end ProviderAssets.Text
