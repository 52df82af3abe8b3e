import RemoteConfig.Text.CodeSet
import RemoteConfig.Text.Unassigned
/-! # Folding

Before a domain is looked at, its characters are folded to a common form: capitals to small letters;
wide, raised and circled letters and figures to plain ones; all kinds of dots to one.  Some
characters are dropped.

Whether a domain is proper hangs on its ASCII characters and on the kind of the others.  So the
table holds the characters whose folded form has ASCII in it, or is of another kind than they are.
All others are left as they are here; the sets of changing characters tell which of them have a
folded form of the same kind.

A run of these sets may go on over code points that are unassigned or dropped. -/

namespace RemoteConfig.Url

open Text

/-- Characters with their folded forms: every word is a character and its form. -/
def foldedLines : List String :=
  ["ªa ²2 ³3 ¹1 ºo ¼1⁄4 ½1⁄2 ¾3⁄4 İi\u0307 Ĳij ĳij Ŀl· ŀl· ŉʼn ſs Ǆdž ǅdž ǆdž Ǉlj ǈlj ǉlj",
   "Ǌnj ǋnj ǌnj Ǳdz ǲdz ǳdz ʰh ʲj ʳr ʷw ʸy ˡl ˢs ˣx \u0345ι ;; ำ\u0e4dา ຳ\u0ecdາ ᴬa ᴮb ᴰd",
   "ᴱe ᴳg ᴴh ᴵi ᴶj ᴷk ᴸl ᴹm ᴺn ᴼo ᴾp ᴿr ᵀt ᵁu ᵂw ᵃa ᵇb ᵈd ᵉe ᵍg ᵏk ᵐm ᵒo ᵖp ᵗt ᵘu ᵛv ᵢi ᵣr",
   "ᵤu ᵥv ᶜc ᶠf ᶻz ẚaʾ `\x60 ‼!! ⁰0 ⁱi ⁴4 ⁵5 ⁶6 ⁷7 ⁸8 ⁹9 ⁺+ ⁼= ⁽( ⁾) ⁿn ₀0 ₁1 ₂2 ₃3 ₄4 ₅5 ₆6",
   "₇7 ₈8 ₉9 ₊+ ₌= ₍( ₎) ₐa ₑe ₒo ₓx ₕh ₖk ₗl ₘm ₙn ₚp ₛs ₜt ₨rs ℂc ℃°c ℉°f ℊg ℋh ℌh ℍh ℎh",
   "ℐi ℑi ℒl ℓl ℕn №no ℙp ℚq ℛr ℜr ℝr ℠sm ℡tel ™tm ℤz ℨz Kk ℬb ℭc ℯe ℰe ℱf ℳm ℴo ℹi ℻fax",
   "ⅅd ⅆd ⅇe ⅈi ⅉj ⅐1⁄7 ⅑1⁄9 ⅒1⁄10 ⅓1⁄3 ⅔2⁄3 ⅕1⁄5 ⅖2⁄5 ⅗3⁄5 ⅘4⁄5 ⅙1⁄6 ⅚5⁄6 ⅛1⁄8 ⅜3⁄8 ⅝5⁄8",
   "⅞7⁄8 ⅟1⁄ Ⅰi Ⅱii Ⅲiii Ⅳiv Ⅴv Ⅵvi Ⅶvii Ⅷviii Ⅸix Ⅹx Ⅺxi Ⅻxii Ⅼl Ⅽc Ⅾd Ⅿm ⅰi ⅱii ⅲiii ⅳiv",
   "ⅴv ⅵvi ⅶvii ⅷviii ⅸix ⅹx ⅺxi ⅻxii ⅼl ⅽc ⅾd ⅿm ↉0⁄3 ①1 ②2 ③3 ④4 ⑤5 ⑥6 ⑦7 ⑧8 ⑨9 ⑩10 ⑪11",
   "⑫12 ⑬13 ⑭14 ⑮15 ⑯16 ⑰17 ⑱18 ⑲19 ⑳20 ⑴(1) ⑵(2) ⑶(3) ⑷(4) ⑸(5) ⑹(6) ⑺(7) ⑻(8) ⑼(9) ⑽(10)",
   "⑾(11) ⑿(12) ⒀(13) ⒁(14) ⒂(15) ⒃(16) ⒄(17) ⒅(18) ⒆(19) ⒇(20) ⒜(a) ⒝(b) ⒞(c) ⒟(d) ⒠(e)",
   "⒡(f) ⒢(g) ⒣(h) ⒤(i) ⒥(j) ⒦(k) ⒧(l) ⒨(m) ⒩(n) ⒪(o) ⒫(p) ⒬(q) ⒭(r) ⒮(s) ⒯(t) ⒰(u) ⒱(v)",
   "⒲(w) ⒳(x) ⒴(y) ⒵(z) Ⓐa Ⓑb Ⓒc Ⓓd Ⓔe Ⓕf Ⓖg Ⓗh Ⓘi Ⓙj Ⓚk Ⓛl Ⓜm Ⓝn Ⓞo Ⓟp Ⓠq Ⓡr Ⓢs Ⓣt Ⓤu Ⓥv",
   "Ⓦw Ⓧx Ⓨy Ⓩz ⓐa ⓑb ⓒc ⓓd ⓔe ⓕf ⓖg ⓗh ⓘi ⓙj ⓚk ⓛl ⓜm ⓝn ⓞo ⓟp ⓠq ⓡr ⓢs ⓣt ⓤu ⓥv ⓦw ⓧx ⓨy",
   "ⓩz ⓪0 ⩵== ⩶=== ⱼj ⱽv 。. ㈀(ᄀ) ㈁(ᄂ) ㈂(ᄃ) ㈃(ᄅ) ㈄(ᄆ) ㈅(ᄇ) ㈆(ᄉ) ㈇(ᄋ) ㈈(ᄌ) ㈉(ᄎ) ㈊(ᄏ) ㈋(ᄐ)",
   "㈌(ᄑ) ㈍(ᄒ) ㈎(가) ㈏(나) ㈐(다) ㈑(라) ㈒(마) ㈓(바) ㈔(사) ㈕(아) ㈖(자) ㈗(차) ㈘(카) ㈙(타) ㈚(파) ㈛(하) ㈜(주)",
   "㈝(오전) ㈞(오후) ㈠(一) ㈡(二) ㈢(三) ㈣(四) ㈤(五) ㈥(六) ㈦(七) ㈧(八) ㈨(九) ㈩(十) ㈪(月) ㈫(火) ㈬(水) ㈭(木) ㈮(金)",
   "㈯(土) ㈰(日) ㈱(株) ㈲(有) ㈳(社) ㈴(名) ㈵(特) ㈶(財) ㈷(祝) ㈸(労) ㈹(代) ㈺(呼) ㈻(学) ㈼(監) ㈽(企) ㈾(資) ㈿(協)",
   "㉀(祭) ㉁(休) ㉂(自) ㉃(至) ㉐pte ㉑21 ㉒22 ㉓23 ㉔24 ㉕25 ㉖26 ㉗27 ㉘28 ㉙29 ㉚30 ㉛31 ㉜32 ㉝33 ㉞34 ㉟35",
   "㊱36 ㊲37 ㊳38 ㊴39 ㊵40 ㊶41 ㊷42 ㊸43 ㊹44 ㊺45 ㊻46 ㊼47 ㊽48 ㊾49 ㊿50 ㋀1月 ㋁2月 ㋂3月 ㋃4月 ㋄5月 ㋅6月",
   "㋆7月 ㋇8月 ㋈9月 ㋉10月 ㋊11月 ㋋12月 ㋌hg ㋍erg ㋎ev ㋏ltd ㍘0点 ㍙1点 ㍚2点 ㍛3点 ㍜4点 ㍝5点 ㍞6点 ㍟7点 ㍠8点 ㍡9点",
   "㍢10点 ㍣11点 ㍤12点 ㍥13点 ㍦14点 ㍧15点 ㍨16点 ㍩17点 ㍪18点 ㍫19点 ㍬20点 ㍭21点 ㍮22点 ㍯23点 ㍰24点 ㍱hpa ㍲da",
   "㍳au ㍴bar ㍵ov ㍶pc ㍷dm ㍸dm2 ㍹dm3 ㍺iu ㎀pa ㎁na ㎂μa ㎃ma ㎄ka ㎅kb ㎆mb ㎇gb ㎈cal ㎉kcal ㎊pf ㎋nf",
   "㎌μf ㎍μg ㎎mg ㎏kg ㎐hz ㎑khz ㎒mhz ㎓ghz ㎔thz ㎕μl ㎖ml ㎗dl ㎘kl ㎙fm ㎚nm ㎛μm ㎜mm ㎝cm ㎞km ㎟mm2",
   "㎠cm2 ㎡m2 ㎢km2 ㎣mm3 ㎤cm3 ㎥m3 ㎦km3 ㎧m∕s ㎨m∕s2 ㎩pa ㎪kpa ㎫mpa ㎬gpa ㎭rad ㎮rad∕s ㎯rad∕s2 ㎰ps",
   "㎱ns ㎲μs ㎳ms ㎴pv ㎵nv ㎶μv ㎷mv ㎸kv ㎹mv ㎺pw ㎻nw ㎼μw ㎽mw ㎾kw ㎿mw ㏀kω ㏁mω ㏃bq ㏄cc ㏅cd ㏆c∕kg",
   "㏈db ㏉gy ㏊ha ㏋hp ㏌in ㏍kk ㏎km ㏏kt ㏐lm ㏑ln ㏒log ㏓lx ㏔mb ㏕mil ㏖mol ㏗ph ㏙ppm ㏚pr ㏛sr ㏜sv",
   "㏝wb ㏞v∕m ㏟a∕m ㏠1日 ㏡2日 ㏢3日 ㏣4日 ㏤5日 ㏥6日 ㏦7日 ㏧8日 ㏨9日 ㏩10日 ㏪11日 ㏫12日 ㏬13日 ㏭14日 ㏮15日 ㏯16日",
   "㏰17日 ㏱18日 ㏲19日 ㏳20日 ㏴21日 ㏵22日 ㏶23日 ㏷24日 ㏸25日 ㏹26日 ㏺27日 ㏻28日 ㏼29日 ㏽30日 ㏾31日 ㏿gal ꟱s ꟲc",
   "ꟳf ꟴq ﬀff ﬁfi ﬂfl ﬃffi ﬄffl ﬅst ﬆst \ufb29+ ︐, ︔; ︕! ︳_ ︴_ ︵( ︶) ︷\x7b ︸\x7d ﹍_ ﹎_ ﹏_",
   "﹐, ﹔; ﹗! ﹙( ﹚) ﹛\x7b ﹜\x7d ﹠& ﹡* ﹢+ ﹣- ﹤< ﹥> ﹦= ﹩$ ！! ＂\" ＄$ ＆& ＇\x27 （( ）) ＊* ＋+ ，, －-",
   "．. ０0 １1 ２2 ３3 ４4 ５5 ６6 ７7 ８8 ９9 ；; ＜< ＝= ＞> Ａa Ｂb Ｃc Ｄd Ｅe Ｆf Ｇg Ｈh Ｉi Ｊj Ｋk Ｌl Ｍm Ｎn",
   "Ｏo Ｐp Ｑq Ｒr Ｓs Ｔt Ｕu Ｖv Ｗw Ｘx Ｙy Ｚz ＿_ ｀\x60 ａa ｂb ｃc ｄd ｅe ｆf ｇg ｈh ｉi ｊj ｋk ｌl ｍm ｎn ｏo",
   "ｐp ｑq ｒr ｓs ｔt ｕu ｖv ｗw ｘx ｙy ｚz ｛\x7b ｝\x7d ～~ ｡. ﾞ\u3099 ﾟ\u309a 𐞥q 𜳖a 𜳗b 𜳘c 𜳙d 𜳚e",
   "𜳛f 𜳜g 𜳝h 𜳞i 𜳟j 𜳠k 𜳡l 𜳢m 𜳣n 𜳤o 𜳥p 𜳦q 𜳧r 𜳨s 𜳩t 𜳪u 𜳫v 𜳬w 𜳭x 𜳮y 𜳯z 𜳰0 𜳱1 𜳲2 𜳳3 𜳴4 𜳵5 𜳶6 𜳷7",
   "𜳸8 𜳹9 𝐀a 𝐁b 𝐂c 𝐃d 𝐄e 𝐅f 𝐆g 𝐇h 𝐈i 𝐉j 𝐊k 𝐋l 𝐌m 𝐍n 𝐎o 𝐏p 𝐐q 𝐑r 𝐒s 𝐓t 𝐔u 𝐕v 𝐖w 𝐗x 𝐘y 𝐙z 𝐚a",
   "𝐛b 𝐜c 𝐝d 𝐞e 𝐟f 𝐠g 𝐡h 𝐢i 𝐣j 𝐤k 𝐥l 𝐦m 𝐧n 𝐨o 𝐩p 𝐪q 𝐫r 𝐬s 𝐭t 𝐮u 𝐯v 𝐰w 𝐱x 𝐲y 𝐳z 𝐴a 𝐵b 𝐶c 𝐷d",
   "𝐸e 𝐹f 𝐺g 𝐻h 𝐼i 𝐽j 𝐾k 𝐿l 𝑀m 𝑁n 𝑂o 𝑃p 𝑄q 𝑅r 𝑆s 𝑇t 𝑈u 𝑉v 𝑊w 𝑋x 𝑌y 𝑍z 𝑎a 𝑏b 𝑐c 𝑑d 𝑒e 𝑓f 𝑔g",
   "𝑖i 𝑗j 𝑘k 𝑙l 𝑚m 𝑛n 𝑜o 𝑝p 𝑞q 𝑟r 𝑠s 𝑡t 𝑢u 𝑣v 𝑤w 𝑥x 𝑦y 𝑧z 𝑨a 𝑩b 𝑪c 𝑫d 𝑬e 𝑭f 𝑮g 𝑯h 𝑰i 𝑱j 𝑲k",
   "𝑳l 𝑴m 𝑵n 𝑶o 𝑷p 𝑸q 𝑹r 𝑺s 𝑻t 𝑼u 𝑽v 𝑾w 𝑿x 𝒀y 𝒁z 𝒂a 𝒃b 𝒄c 𝒅d 𝒆e 𝒇f 𝒈g 𝒉h 𝒊i 𝒋j 𝒌k 𝒍l 𝒎m 𝒏n",
   "𝒐o 𝒑p 𝒒q 𝒓r 𝒔s 𝒕t 𝒖u 𝒗v 𝒘w 𝒙x 𝒚y 𝒛z 𝒜a 𝒞c 𝒟d 𝒢g 𝒥j 𝒦k 𝒩n 𝒪o 𝒫p 𝒬q 𝒮s 𝒯t 𝒰u 𝒱v 𝒲w 𝒳x 𝒴y",
   "𝒵z 𝒶a 𝒷b 𝒸c 𝒹d 𝒻f 𝒽h 𝒾i 𝒿j 𝓀k 𝓁l 𝓂m 𝓃n 𝓅p 𝓆q 𝓇r 𝓈s 𝓉t 𝓊u 𝓋v 𝓌w 𝓍x 𝓎y 𝓏z 𝓐a 𝓑b 𝓒c 𝓓d 𝓔e",
   "𝓕f 𝓖g 𝓗h 𝓘i 𝓙j 𝓚k 𝓛l 𝓜m 𝓝n 𝓞o 𝓟p 𝓠q 𝓡r 𝓢s 𝓣t 𝓤u 𝓥v 𝓦w 𝓧x 𝓨y 𝓩z 𝓪a 𝓫b 𝓬c 𝓭d 𝓮e 𝓯f 𝓰g 𝓱h",
   "𝓲i 𝓳j 𝓴k 𝓵l 𝓶m 𝓷n 𝓸o 𝓹p 𝓺q 𝓻r 𝓼s 𝓽t 𝓾u 𝓿v 𝔀w 𝔁x 𝔂y 𝔃z 𝔄a 𝔅b 𝔇d 𝔈e 𝔉f 𝔊g 𝔍j 𝔎k 𝔏l 𝔐m 𝔑n",
   "𝔒o 𝔓p 𝔔q 𝔖s 𝔗t 𝔘u 𝔙v 𝔚w 𝔛x 𝔜y 𝔞a 𝔟b 𝔠c 𝔡d 𝔢e 𝔣f 𝔤g 𝔥h 𝔦i 𝔧j 𝔨k 𝔩l 𝔪m 𝔫n 𝔬o 𝔭p 𝔮q 𝔯r 𝔰s",
   "𝔱t 𝔲u 𝔳v 𝔴w 𝔵x 𝔶y 𝔷z 𝔸a 𝔹b 𝔻d 𝔼e 𝔽f 𝔾g 𝕀i 𝕁j 𝕂k 𝕃l 𝕄m 𝕆o 𝕊s 𝕋t 𝕌u 𝕍v 𝕎w 𝕏x 𝕐y 𝕒a 𝕓b 𝕔c",
   "𝕕d 𝕖e 𝕗f 𝕘g 𝕙h 𝕚i 𝕛j 𝕜k 𝕝l 𝕞m 𝕟n 𝕠o 𝕡p 𝕢q 𝕣r 𝕤s 𝕥t 𝕦u 𝕧v 𝕨w 𝕩x 𝕪y 𝕫z 𝕬a 𝕭b 𝕮c 𝕯d 𝕰e 𝕱f",
   "𝕲g 𝕳h 𝕴i 𝕵j 𝕶k 𝕷l 𝕸m 𝕹n 𝕺o 𝕻p 𝕼q 𝕽r 𝕾s 𝕿t 𝖀u 𝖁v 𝖂w 𝖃x 𝖄y 𝖅z 𝖆a 𝖇b 𝖈c 𝖉d 𝖊e 𝖋f 𝖌g 𝖍h 𝖎i",
   "𝖏j 𝖐k 𝖑l 𝖒m 𝖓n 𝖔o 𝖕p 𝖖q 𝖗r 𝖘s 𝖙t 𝖚u 𝖛v 𝖜w 𝖝x 𝖞y 𝖟z 𝖠a 𝖡b 𝖢c 𝖣d 𝖤e 𝖥f 𝖦g 𝖧h 𝖨i 𝖩j 𝖪k 𝖫l",
   "𝖬m 𝖭n 𝖮o 𝖯p 𝖰q 𝖱r 𝖲s 𝖳t 𝖴u 𝖵v 𝖶w 𝖷x 𝖸y 𝖹z 𝖺a 𝖻b 𝖼c 𝖽d 𝖾e 𝖿f 𝗀g 𝗁h 𝗂i 𝗃j 𝗄k 𝗅l 𝗆m 𝗇n 𝗈o",
   "𝗉p 𝗊q 𝗋r 𝗌s 𝗍t 𝗎u 𝗏v 𝗐w 𝗑x 𝗒y 𝗓z 𝗔a 𝗕b 𝗖c 𝗗d 𝗘e 𝗙f 𝗚g 𝗛h 𝗜i 𝗝j 𝗞k 𝗟l 𝗠m 𝗡n 𝗢o 𝗣p 𝗤q 𝗥r",
   "𝗦s 𝗧t 𝗨u 𝗩v 𝗪w 𝗫x 𝗬y 𝗭z 𝗮a 𝗯b 𝗰c 𝗱d 𝗲e 𝗳f 𝗴g 𝗵h 𝗶i 𝗷j 𝗸k 𝗹l 𝗺m 𝗻n 𝗼o 𝗽p 𝗾q 𝗿r 𝘀s 𝘁t 𝘂u",
   "𝘃v 𝘄w 𝘅x 𝘆y 𝘇z 𝘈a 𝘉b 𝘊c 𝘋d 𝘌e 𝘍f 𝘎g 𝘏h 𝘐i 𝘑j 𝘒k 𝘓l 𝘔m 𝘕n 𝘖o 𝘗p 𝘘q 𝘙r 𝘚s 𝘛t 𝘜u 𝘝v 𝘞w 𝘟x",
   "𝘠y 𝘡z 𝘢a 𝘣b 𝘤c 𝘥d 𝘦e 𝘧f 𝘨g 𝘩h 𝘪i 𝘫j 𝘬k 𝘭l 𝘮m 𝘯n 𝘰o 𝘱p 𝘲q 𝘳r 𝘴s 𝘵t 𝘶u 𝘷v 𝘸w 𝘹x 𝘺y 𝘻z 𝘼a",
   "𝘽b 𝘾c 𝘿d 𝙀e 𝙁f 𝙂g 𝙃h 𝙄i 𝙅j 𝙆k 𝙇l 𝙈m 𝙉n 𝙊o 𝙋p 𝙌q 𝙍r 𝙎s 𝙏t 𝙐u 𝙑v 𝙒w 𝙓x 𝙔y 𝙕z 𝙖a 𝙗b 𝙘c 𝙙d",
   "𝙚e 𝙛f 𝙜g 𝙝h 𝙞i 𝙟j 𝙠k 𝙡l 𝙢m 𝙣n 𝙤o 𝙥p 𝙦q 𝙧r 𝙨s 𝙩t 𝙪u 𝙫v 𝙬w 𝙭x 𝙮y 𝙯z 𝙰a 𝙱b 𝙲c 𝙳d 𝙴e 𝙵f 𝙶g",
   "𝙷h 𝙸i 𝙹j 𝙺k 𝙻l 𝙼m 𝙽n 𝙾o 𝙿p 𝚀q 𝚁r 𝚂s 𝚃t 𝚄u 𝚅v 𝚆w 𝚇x 𝚈y 𝚉z 𝚊a 𝚋b 𝚌c 𝚍d 𝚎e 𝚏f 𝚐g 𝚑h 𝚒i 𝚓j",
   "𝚔k 𝚕l 𝚖m 𝚗n 𝚘o 𝚙p 𝚚q 𝚛r 𝚜s 𝚝t 𝚞u 𝚟v 𝚠w 𝚡x 𝚢y 𝚣z 𝟎0 𝟏1 𝟐2 𝟑3 𝟒4 𝟓5 𝟔6 𝟕7 𝟖8 𝟗9 𝟘0 𝟙1 𝟚2",
   "𝟛3 𝟜4 𝟝5 𝟞6 𝟟7 𝟠8 𝟡9 𝟢0 𝟣1 𝟤2 𝟥3 𝟦4 𝟧5 𝟨6 𝟩7 𝟪8 𝟫9 𝟬0 𝟭1 𝟮2 𝟯3 𝟰4 𝟱5 𝟲6 𝟳7 𝟴8 𝟵9 𝟶0 𝟷1",
   "𝟸2 𝟹3 𝟺4 𝟻5 𝟼6 𝟽7 𝟾8 𝟿9 🄁0, 🄂1, 🄃2, 🄄3, 🄅4, 🄆5, 🄇6, 🄈7, 🄉8, 🄊9, 🄐(a) 🄑(b) 🄒(c) 🄓(d)",
   "🄔(e) 🄕(f) 🄖(g) 🄗(h) 🄘(i) 🄙(j) 🄚(k) 🄛(l) 🄜(m) 🄝(n) 🄞(o) 🄟(p) 🄠(q) 🄡(r) 🄢(s) 🄣(t) 🄤(u)",
   "🄥(v) 🄦(w) 🄧(x) 🄨(y) 🄩(z) 🄪〔s〕 🄫c 🄬r 🄭cd 🄮wz 🄰a 🄱b 🄲c 🄳d 🄴e 🄵f 🄶g 🄷h 🄸i 🄹j 🄺k 🄻l 🄼m 🄽n",
   "🄾o 🄿p 🅀q 🅁r 🅂s 🅃t 🅄u 🅅v 🅆w 🅇x 🅈y 🅉z 🅊hv 🅋mv 🅌sd 🅍ss 🅎ppv 🅏wc 🅪mc 🅫md 🅬mr 🆐dj 🉀〔本〕 🉁〔三〕",
   "🉂〔二〕 🉃〔安〕 🉄〔点〕 🉅〔打〕 🉆〔盗〕 🉇〔勝〕 🉈〔敗〕 🯰0 🯱1 🯲2 🯳3 🯴4 🯵5 🯶6 🯷7 🯸8 🯹9"]

def foldedForms : List (Char × List Char) :=
  foldedLines.flatMap fun line => (line.toList.splitOn ' ').filterMap fun
    | c :: form => some (c, form)
    | [] => none

/-- Characters that folding drops. -/
def droppedCharacters : CodeSet :=
  ⟨[0xad, 0xae, 0x34f, 0x350, 0x115f, 0x1161, 0x17b4, 0x17b6, 0x180b, 0x1810, 0x200b, 0x200c,
    0x2060, 0x2065, 0x206a, 0x2070, 0x3164, 0x3165, 0xfe00, 0xfe10, 0xfeff, 0xff00, 0xffa0, 0xffa1,
    0x1bca0, 0x1bca4, 0x1d173, 0x1d17b, 0xe0100, 0xe01f0]⟩

/-- Runs in which all characters change to others of their kind. -/
def changingCharacters : CodeSet :=
  ⟨[0xb5, 0xb6, 0xc0, 0xd7, 0xd8, 0xdf, 0x134, 0x135, 0x136, 0x137, 0x178, 0x17a, 0x181, 0x183,
    0x184, 0x185, 0x186, 0x188, 0x189, 0x18c, 0x18e, 0x192, 0x193, 0x195, 0x196, 0x199, 0x19c,
    0x19e, 0x19f, 0x1a1, 0x1a6, 0x1a8, 0x1a9, 0x1aa, 0x1ac, 0x1ad, 0x1ae, 0x1b0, 0x1b1, 0x1b4,
    0x1b5, 0x1b6, 0x1b7, 0x1b9, 0x1bc, 0x1bd, 0x1f4, 0x1f5, 0x1f6, 0x1f9, 0x23a, 0x23c, 0x23d,
    0x23f, 0x241, 0x242, 0x243, 0x247, 0x2b1, 0x2b9, 0x2e0, 0x2e5, 0x340, 0x342, 0x343, 0x346,
    0x37f, 0x390, 0x391, 0x3ac, 0x3cf, 0x3d7, 0x3f0, 0x3f3, 0x3f4, 0x3f6, 0x3f7, 0x3f8, 0x3f9,
    0x3fb, 0x3fd, 0x430, 0x4c0, 0x4c2, 0x531, 0x559, 0x587, 0x588, 0x675, 0x679, 0x958, 0x960,
    0x9dc, 0x9e0, 0xa33, 0xa35, 0xa36, 0xa38, 0xa59, 0xa5c, 0xa5e, 0xa66, 0xb5c, 0xb5f, 0xedc,
    0xede, 0xf0c, 0xf0d, 0xf43, 0xf44, 0xf4d, 0xf4e, 0xf52, 0xf53, 0xf57, 0xf58, 0xf5c, 0xf5d,
    0xf69, 0xf6a, 0xf73, 0xf74, 0xf75, 0xf7a, 0xf81, 0xf82, 0xf93, 0xf94, 0xf9d, 0xf9e, 0xfa2,
    0xfa3, 0xfa7, 0xfa8, 0xfac, 0xfad, 0xfb9, 0xfba, 0x10a0, 0x10d0, 0x10fc, 0x10fd, 0x13f8, 0x1400,
    0x1c80, 0x1c8a, 0x1c90, 0x1cc0, 0x1d2d, 0x1d2f, 0x1d32, 0x1d3b, 0x1d3d, 0x1d4e, 0x1d51, 0x1d6b,
    0x1d78, 0x1d79, 0x1d9b, 0x1dc0, 0x1e9b, 0x1e9c, 0x1f08, 0x1f10, 0x1f18, 0x1f20, 0x1f28, 0x1f30,
    0x1f38, 0x1f40, 0x1f48, 0x1f50, 0x1f59, 0x1f60, 0x1f68, 0x1f70, 0x1f7d, 0x1fb0, 0x1fb2, 0x1fb6,
    0x1fb7, 0x1fc6, 0x1fc7, 0x1fd0, 0x1fd3, 0x1fd6, 0x1fd8, 0x1fe0, 0x1fe3, 0x1fe4, 0x1fe8, 0x1ff6,
    0x1ff7, 0x200c, 0x2011, 0x2012, 0x2033, 0x2035, 0x2036, 0x2038, 0x2057, 0x2058, 0x207b, 0x20a0,
    0x2107, 0x2108, 0x210f, 0x2114, 0x2126, 0x2127, 0x212b, 0x212e, 0x2132, 0x213a, 0x213c, 0x2141,
    0x2183, 0x2184, 0x222c, 0x222e, 0x222f, 0x2231, 0x2329, 0x232b, 0x2a0c, 0x2a0d, 0x2adc, 0x2add,
    0x2c00, 0x2c30, 0x2c60, 0x2c61, 0x2c62, 0x2c65, 0x2c6d, 0x2c71, 0x2c72, 0x2c73, 0x2c75, 0x2c76,
    0x2c7e, 0x2c81, 0x2ceb, 0x2cec, 0x2ced, 0x2cee, 0x2cf2, 0x2cf3, 0x2d6f, 0x2d70, 0x2e9f, 0x2ea0,
    0x2ef3, 0x3001, 0x3036, 0x3037, 0x3038, 0x303b, 0x309f, 0x30a0, 0x30ff, 0x3105, 0x3131, 0x3190,
    0x3192, 0x31a0, 0x3244, 0x3248, 0x3260, 0x327f, 0x3280, 0x3400, 0xa69c, 0xa69e, 0xa779, 0xa77a,
    0xa77b, 0xa77c, 0xa77d, 0xa77f, 0xa78b, 0xa78c, 0xa78d, 0xa78e, 0xa790, 0xa791, 0xa792, 0xa793,
    0xa7aa, 0xa7af, 0xa7b0, 0xa7b5, 0xa7c4, 0xa7c8, 0xa7c9, 0xa7ca, 0xa7cb, 0xa7cd, 0xa7dc, 0xa7f6,
    0xa7f8, 0xa7fa, 0xab5c, 0xab60, 0xab69, 0xab6a, 0xab70, 0xabc0, 0xf900, 0xfa0e, 0xfa10, 0xfa11,
    0xfa12, 0xfa13, 0xfa15, 0xfa1f, 0xfa25, 0xfa27, 0xfa2a, 0xfb1e, 0xfb1f, 0xfbb2, 0xfbd3, 0xfd3e,
    0xfd50, 0xfd90, 0xfd92, 0xfdc8, 0xfdf0, 0xfdfd, 0xfe11, 0xfe20, 0xfe31, 0xfe45, 0xfe51, 0xfe73,
    0xfe77, 0x10000, 0x10400, 0x10428, 0x104b0, 0x104d8, 0x10570, 0x10597, 0x10781, 0x10800,
    0x10c80, 0x10cc0, 0x10d50, 0x10d69, 0x118a0, 0x118c0, 0x16e40, 0x16e60, 0x16ea0, 0x16ebb,
    0x1d15e, 0x1d165, 0x1d1bb, 0x1d1c1, 0x1d6a4, 0x1d800, 0x1e030, 0x1e08f, 0x1e900, 0x1e922,
    0x1ee00, 0x1eef0, 0x1f200, 0x1f260, 0x2f800, 0x30000]⟩

/-- Runs in which characters that change, at even code points, alternate with their folded forms. -/
def evenCapitals : CodeSet :=
  ⟨[0x100, 0x130, 0x14a, 0x178, 0x1a0, 0x1a6, 0x1de, 0x1f0, 0x1f8, 0x234, 0x246, 0x250, 0x370,
    0x378, 0x3d6, 0x3f0, 0x460, 0x482, 0x48a, 0x4c0, 0x4d0, 0x530, 0x1e00, 0x1e96, 0x1e9e, 0x1f00,
    0x2c80, 0x2ce4, 0xa640, 0xa66e, 0xa680, 0xa69c, 0xa722, 0xa730, 0xa732, 0xa772, 0xa77e, 0xa788,
    0xa796, 0xa7aa, 0xa7b4, 0xa7c4, 0xa7cc, 0xa7dc, 0xfa1e, 0xfa24]⟩

/-- Runs of the same sort, where the odd code points change. -/
def oddCapitals : CodeSet :=
  ⟨[0x139, 0x13f, 0x141, 0x149, 0x179, 0x17f, 0x1cd, 0x1dd, 0x4c1, 0x4cf, 0x1f6f, 0x1f7d, 0x2c67,
    0x2c6d]⟩

/-- Characters beyond ASCII without a folded form, or with one that no domain may hold. -/
def unfitCharacters : CodeSet :=
  ⟨[0x80, 0xa1, 0xa8, 0xa9, 0xaf, 0xb0, 0xb4, 0xb5, 0xb8, 0xb9, 0x2d8, 0x2de, 0x37a, 0x37b, 0x384,
    0x386, 0x600, 0x606, 0x61c, 0x61d, 0x6dd, 0x6de, 0x70f, 0x710, 0x890, 0x897, 0x8e2, 0x8e3,
    0x1680, 0x1681, 0x1fbd, 0x1fbe, 0x1fbf, 0x1fc2, 0x1fcd, 0x1fd0, 0x1fdd, 0x1fe0, 0x1fed, 0x1fef,
    0x1ffd, 0x200c, 0x200e, 0x2010, 0x2017, 0x2018, 0x2024, 0x2027, 0x2028, 0x2030, 0x203e, 0x203f,
    0x2047, 0x204a, 0x205f, 0x2070, 0x2100, 0x2102, 0x2105, 0x2107, 0x2488, 0x249c, 0x2a74, 0x2a75,
    0x2ff0, 0x3001, 0x309b, 0x309d, 0x31ef, 0x31f0, 0x33c2, 0x33c3, 0x33c7, 0x33c8, 0x33d8, 0x33d9,
    0xe000, 0xf900, 0xfc5e, 0xfc64, 0xfdfa, 0xfdfc, 0xfe12, 0xfe14, 0xfe16, 0xfe17, 0xfe19, 0xfe20,
    0xfe30, 0xfe31, 0xfe47, 0xfe4d, 0xfe52, 0xfe54, 0xfe55, 0xfe57, 0xfe5f, 0xfe60, 0xfe68, 0xfe69,
    0xfe6a, 0xfe71, 0xfe72, 0xfe73, 0xfe74, 0xfe77, 0xfe78, 0xfe79, 0xfe7a, 0xfe7b, 0xfe7c, 0xfe7d,
    0xfe7e, 0xfe7f, 0xff03, 0xff04, 0xff05, 0xff06, 0xff0f, 0xff10, 0xff1a, 0xff1b, 0xff1f, 0xff21,
    0xff3b, 0xff3f, 0xff5c, 0xff5d, 0xffe3, 0xffe4, 0xfff9, 0x10000, 0x110bd, 0x110be, 0x110cd,
    0x110d0, 0x13430, 0x13440, 0x1f100, 0x1f101, 0xe0001]⟩

/-- Folds a character of a domain. -/
def foldChar (c : Char) : List Char :=
  if c.toNat < 0x80 then [c.toLower]
  else if droppedCharacters.contains c then []
  else (foldedForms.lookup c).getD [c]

/-- Whether folding leaves a character as it is. -/
def isFolded (c : Char) : Bool :=
  foldChar c = [c] && !changingCharacters.contains c &&
    !(evenCapitals.contains c && c.toNat % 2 = 0) && !(oddCapitals.contains c && c.toNat % 2 = 1)

/-- Whether a folded character may not be in a domain. -/
def isForbidden (c : Char) : Bool :=
  if c.toNat < 0x80 then c.toNat ≤ 0x20 || c.toNat = 0x7f || "%#/:<>?@[\\]^|".toList.contains c
  else unassigned.contains c || unfitCharacters.contains c

end RemoteConfig.Url
