import HubConsole.Text.Blank

/-! # Names of Unicode properties

Which names `\\p` knows. A name counts without its letter case, blanks, `_`, `-` and a leading
`is`; the tables hold names in that form. -/

namespace HubConsole.Pattern.Property
open Text

inductive Fault where
  | unknownProperty
  | unknownValue
deriving DecidableEq, Repr

/-- The form of a name in which the tables hold it. -/
def normal (name : List Char) : String :=
  let (marked, rest) := match name with
    | 'i' :: 's' :: rest | 'i' :: 'S' :: rest | 'I' :: 's' :: rest | 'I' :: 'S' :: rest =>
      (true, rest)
    | _ => (false, name)
  let kept := rest.filter fun c => c.toNat < 128 && c != ' ' && c != '_' && c != '-'
  let out := String.ofList (kept.map Char.toLower)
  if marked && out == "c" then "isc" else out

def table (s : String) : List String := (words s.toList).map String.ofList

/-- Properties that a character has or has not, and that can be asked for. -/
def binaryNames : List String := table <|
    "ahex asciihexdigit alpha alphabetic bidic bidicontrol bidim bidimirrored ci " ++
    "caseignorable cased cwcf changeswhencasefolded cwcm changeswhencasemapped cwl " ++
    "changeswhenlowercased cwt changeswhentitlecased cwu changeswhenuppercased dash di " ++
    "defaultignorablecodepoint dep deprecated dia diacritic emoji ecomp emojicomponent emod " ++
    "emojimodifier ebase emojimodifierbase epres emojipresentation extpict " ++
    "extendedpictographic ext extender grbase graphemebase grext graphemeextend grlink " ++
    "graphemelink hex hexdigit hyphen idsb idsbinaryoperator idst idstrinaryoperator idsu " ++
    "idsunaryoperator idcompatmathcontinue idcompatmathstart idc idcontinue ids idstart ideo " ++
    "ideographic joinc joincontrol loe logicalorderexception lower lowercase math mcm " ++
    "modifiercombiningmark nchar noncharactercodepoint oalpha otheralphabetic odi " ++
    "otherdefaultignorablecodepoint ogrext othergraphemeextend oidc otheridcontinue oids " ++
    "otheridstart olower otherlowercase omath othermath oupper otheruppercase patsyn " ++
    "patternsyntax patws patternwhitespace pcm prependedconcatenationmark qmark quotationmark " ++
    "radical ri regionalindicator sterm sentenceterminal sd softdotted term " ++
    "terminalpunctuation uideo unifiedideograph upper uppercase vs variationselector wspace " ++
    "space whitespace xidc xidcontinue xids xidstart"

def otherNames : List String := table <|
    "age bc bidiclass bidimirroringglyph bidipairedbracket bidipairedbrackettype blk block " ++
    "bmg bpb bpt canonicalcombiningclass casefolding ccc ce cf changeswhennfkccasefolded " ++
    "cjkaccountingnumeric cjkcompatibilityvariant cjkiicore cjkirggsource cjkirghsource " ++
    "cjkirgjsource cjkirgksource cjkirgkpsource cjkirgmsource cjkirgssource cjkirgtsource " ++
    "cjkirguksource cjkirgusource cjkirgvsource cjkothernumeric cjkprimarynumeric " ++
    "cjkrsunicode compex compositionexclusion cwkcf decompositionmapping decompositiontype dm " ++
    "dt ea eastasianwidth equideo equivalentunifiedideograph expandsonnfc expandsonnfd " ++
    "expandsonnfkc expandsonnfkd fcnfkc fcnfkcclosure fullcompositionexclusion gc gcb " ++
    "generalcategory graphemeclusterbreak hangulsyllabletype hst incb indicconjunctbreak " ++
    "indicpositionalcategory indicsyllabiccategory inpc insc isc isocomment jamoshortname jg " ++
    "joininggroup joiningtype jsn jt kaccountingnumeric kcompatibilityvariant kehcat kehdesc " ++
    "kehhg kehifao kehjsesh kehnomirror kehnorotate kiicore kirggsource kirghsource " ++
    "kirgjsource kirgksource kirgkpsource kirgmsource kirgssource kirgtsource kirguksource " ++
    "kirgusource kirgvsource kothernumeric kprimarynumeric krsunicode lb linebreak lc " ++
    "lowercasemapping na na1 name namealias nfcqc nfcquickcheck nfdqc nfdquickcheck " ++
    "nfkccasefold nfkccf nfkcqc nfkcquickcheck nfkcscf nfkcsimplecasefold nfkdqc " ++
    "nfkdquickcheck nt numerictype numericvalue nv sb sc scf script scriptextensions scx " ++
    "sentencebreak sfc simplecasefolding simplelowercasemapping simpletitlecasemapping " ++
    "simpleuppercasemapping slc stc suc tc titlecasemapping uc unicode1name " ++
    "unicoderadicalstroke uppercasemapping urs verticalorientation vo wb wordbreak xonfc " ++
    "xonfd xonfkc xonfkd"

/-- General categories, and the classes of all, of assigned and of ASCII characters. -/
def categoryNames : List String := table <|
    "any ascii assigned c casedletter cc cf closepunctuation cn cntrl co combiningmark " ++
    "connectorpunctuation control currencysymbol dashpunctuation decimalnumber digit " ++
    "enclosingmark finalpunctuation format initialpunctuation l lc letter letternumber " ++
    "lineseparator ll lm lo lowercaseletter lt lu m mark mathsymbol mc me mn modifierletter " ++
    "modifiersymbol n nd nl no nonspacingmark number openpunctuation other otherletter " ++
    "othernumber otherpunctuation othersymbol p paragraphseparator pc pd pe pf pi po " ++
    "privateuse ps punct punctuation s sc separator sk sm so spaceseparator spacingmark " ++
    "symbol titlecaseletter unassigned uppercaseletter z zl zp zs"

def scriptNames : List String := table <|
    "adlam adlm aghb ahom anatolianhieroglyphs arab arabic armenian armi armn avestan avst " ++
    "bali balinese bamu bamum bass bassavah batak batk beng bengali bhaiksuki bhks bopo " ++
    "bopomofo brah brahmi brai braille bugi buginese buhd buhid cakm canadianaboriginal cans " ++
    "cari carian caucasianalbanian chakma cham cher cherokee chorasmian chrs common copt " ++
    "coptic cpmn cprt cuneiform cypriot cyprominoan cyrillic cyrl deseret deva devanagari " ++
    "diak divesakuru dogr dogra dsrt dupl duployan egyp egyptianhieroglyphs elba elbasan elym " ++
    "elymaic ethi ethiopic gara garay geor georgian glag glagolitic gong gonm goth gothic " ++
    "gran grantha greek grek gujarati gujr gukh gunjalagondi gurmukhi guru gurungkhema han " ++
    "hang hangul hani hanifirohingya hano hanunoo hatr hatran hebr hebrew hira hiragana hluw " ++
    "hmng hmnp hung imperialaramaic inherited inscriptionalpahlavi inscriptionalparthian ital " ++
    "java javanese kaithi kali kana kannada katakana kawi kayahli khar kharoshthi " ++
    "khitansmallscript khmer khmr khoj khojki khudawadi kiratrai kits knda krai kthi lana lao " ++
    "laoo latin latn lepc lepcha limb limbu lina linb lineara linearb lisu lyci lycian lydi " ++
    "lydian mahajani mahj maka makasar malayalam mand mandaic mani manichaean marc marchen " ++
    "masaramgondi medefaidrin medf meeteimayek mend mendekikakui merc mero meroiticcursive " ++
    "meroitichieroglyphs miao mlym modi mong mongolian mro mroo mtei mult multani myanmar " ++
    "mymr nabataean nagm nagmundari nand nandinagari narb nbat newa newtailue nko nkoo nshu " ++
    "nushu nyiakengpuachuehmong ogam ogham olchiki olck oldhungarian olditalic " ++
    "oldnortharabian oldpermic oldpersian oldsogdian oldsoutharabian oldturkic olduyghur " ++
    "olonal onao oriya orkh orya osage osge osma osmanya ougr pahawhhmong palm palmyrene pauc " ++
    "paucinhau perm phag phagspa phli phlp phnx phoenician plrd prti psalterpahlavi qaac qaai " ++
    "rejang rjng rohg runic runr samaritan samr sarb saur saurashtra sgnw sharada shavian " ++
    "shaw shrd sidd siddham signwriting sind sinh sinhala sogd sogdian sogo sora sorasompeng " ++
    "soyo soyombo sund sundanese sunu sunuwar sylo sylotinagri syrc syriac tagalog tagb " ++
    "tagbanwa taile taitham taiviet takr takri tale talu tamil taml tang tangsa tangut tavt " ++
    "telu telugu tfng tglg thaa thaana thai tibetan tibt tifinagh tirh tirhuta tnsa todhri " ++
    "todr toto tulutigalari tutg ugar ugaritic vai vaii vith vithkuqi wancho wara warangciti " ++
    "wcho xpeo xsux yezi yezidi yi yiii zanabazarsquare zanb zinh zyyy"

def ageNames : List String := table <|
    "1.1 10.0 11.0 12.0 12.1 13.0 14.0 15.0 15.1 16.0 2.0 2.1 3.0 3.1 3.2 4.0 4.1 5.0 5.1 5.2 " ++
    "6.0 6.1 6.2 6.3 7.0 8.0 9.0 v100 v11 v110 v120 v121 v130 v140 v150 v151 v160 v20 v21 v30 " ++
    "v31 v32 v40 v41 v50 v51 v52 v60 v61 v62 v63 v70 v80 v90"

def clusterBreakNames : List String := table <|
    "cn control cr ex extend l lf lv lvt pp prepend regionalindicator ri sm spacingmark t v " ++
    "zwj"

def wordBreakNames : List String := table <|
    "aletter cr doublequote dq ex extend extendnumlet fo format hebrewletter hl ka katakana " ++
    "le lf mb midletter midnum midnumlet ml mn newline nl nu numeric regionalindicator ri " ++
    "singlequote sq wsegspace zwj"

def sentenceBreakNames : List String := table <|
    "at aterm cl close cr ex extend fo format le lf lo lower nu numeric oletter sc scontinue " ++
    "se sep sp st sterm up upper"

/-- Names of categories and scripts that are known and have no characters to match. -/
def emptyNames : List String := table "cs surrogate zzzz unknown hrkt katakanaorhiragana"

def isProperty (name : String) : Bool := binaryNames.contains name || otherNames.contains name

/-- The fault of a name that stands alone, if it has one. The short names of two categories and of
cased letters win over properties of the same name. -/
def faultOfName? (name : List Char) : Option Fault :=
  let name := normal name
  if isProperty name && !(["cf", "sc", "lc"].contains name) then
    if binaryNames.contains name then none else some .unknownProperty
  else if categoryNames.contains name || scriptNames.contains name then none
  else if emptyNames.contains name then some .unknownValue
  else some .unknownProperty

def faultOfValue? (name value : List Char) : Option Fault :=
  let value := normal value
  let among (names : List String) : Option Fault :=
    if names.contains value then none else some .unknownValue
  match normal name with
  | "gc" | "generalcategory" => among categoryNames
  | "sc" | "script" | "scx" | "scriptextensions" => among scriptNames
  | "age" => among ageNames
  | "gcb" | "graphemeclusterbreak" => among clusterBreakNames
  | "wb" | "wordbreak" => among wordBreakNames
  | "sb" | "sentencebreak" => among sentenceBreakNames
  | other => some (if isProperty other then .unknownValue else .unknownProperty)

end HubConsole.Pattern.Property
