/-!
# Composites

Characters that stand for a letter with a mark behind it. The table covers the letters and marks
of Unicode 14 that may stand in a name, except the syllables of Hangul, which are counted out
(`NormalForm.syllable?`).
-/

namespace FieldComposition.Text.NormalForm

/-- Every mark with letters that take it, each followed by the composite of both. -/
def composites : List (Char × String) :=
  [('\u0300', "AÀEÈIÌNǸOÒUÙWẀYỲaàeèiìnǹoòuùwẁyỳÂẦÊỀÔỒÜǛâầêềôồüǜĂẰăằĒḔēḕŌṐōṑƠỜơờƯỪưừΑᾺΕῈΗῊΙῚΟῸ"),
   ('\u0300', "ΥῪΩῺαὰεὲηὴιὶοὸυὺωὼϊῒϋῢЕЀИЍеѐиѝἀἂἁἃἈἊἉἋἐἒἑἓἘἚἙἛἠἢἡἣἨἪἩἫἰἲἱἳἸἺἹἻὀὂὁὃὈὊὉὋὐὒὑὓὙὛὠὢ"),
   ('\u0300', "ὡὣὨὪὩὫ"),
   ('\u0301', "AÁCĆEÉGǴIÍKḰLĹMḾNŃOÓPṔRŔSŚUÚWẂYÝZŹaácćeégǵiíkḱlĺmḿnńoópṕrŕsśuúwẃyýzźÂẤÅǺÆǼÇḈÊẾ"),
   ('\u0301', "ÏḮÔỐÕṌØǾÜǗâấåǻæǽçḉêếïḯôốõṍøǿüǘĂẮăắĒḖēḗŌṒōṓŨṸũṹƠỚơớƯỨưứΑΆΕΈΗΉΙΊΟΌΥΎΩΏαάεέηήιίοό"),
   ('\u0301', "υύωώϊΐϋΰϒϓГЃКЌгѓкќἀἄἁἅἈἌἉἍἐἔἑἕἘἜἙἝἠἤἡἥἨἬἩἭἰἴἱἵἸἼἹἽὀὄὁὅὈὌὉὍὐὔὑὕὙὝὠὤὡὥὨὬὩὭ"),
   ('\u0302', "AÂCĈEÊGĜHĤIÎJĴOÔSŜUÛWŴYŶZẐaâcĉeêgĝhĥiîjĵoôsŝuûwŵyŷzẑẠẬạậẸỆẹệỌỘọộ"),
   ('\u0303', "AÃEẼIĨNÑOÕUŨVṼYỸaãeẽiĩnñoõuũvṽyỹÂẪÊỄÔỖâẫêễôỗĂẴăẵƠỠơỡƯỮưữ"),
   ('\u0304', "AĀEĒGḠIĪOŌUŪYȲaāeēgḡiīoōuūyȳÄǞÆǢÕȬÖȪÜǕäǟæǣõȭöȫüǖǪǬǫǭȦǠȧǡȮȰȯȱΑᾹΙῙΥῩαᾱιῑυῡИӢУӮиӣ"),
   ('\u0304', "уӯḶḸḷḹṚṜṛṝ"),
   ('\u0306', "AĂEĔGĞIĬOŎUŬaăeĕgğiĭoŏuŭȨḜȩḝΑᾸΙῘΥῨαᾰιῐυῠАӐЕӖЖӁИЙУЎаӑеӗжӂийуўẠẶạặ"),
   ('\u0307', "AȦBḂCĊDḊEĖFḞGĠHḢIİMṀNṄOȮPṖRṘSṠTṪWẆXẊYẎZŻaȧbḃcċdḋeėfḟgġhḣmṁnṅoȯpṗrṙsṡtṫwẇxẋyẏzż"),
   ('\u0307', "ŚṤśṥŠṦšṧſẛṢṨṣṩ"),
   ('\u0308', "AÄEËHḦIÏOÖUÜWẄXẌYŸaäeëhḧiïoötẗuüwẅxẍyÿÕṎõṏŪṺūṻΙΪΥΫιϊυϋϒϔІЇАӒЕЁЖӜЗӞИӤОӦУӰЧӴЫӸЭӬ"),
   ('\u0308', "аӓеёжӝзӟиӥоӧуӱчӵыӹэӭіїӘӚәӛӨӪөӫ"),
   ('\u0309', "AẢEẺIỈOỎUỦYỶaảeẻiỉoỏuủyỷÂẨÊỂÔỔâẩêểôổĂẲăẳƠỞơởƯỬưử"),
   ('\u030a', "AÅUŮaåuůwẘyẙ"),
   ('\u030b', "OŐUŰoőuűУӲуӳ"),
   ('\u030c', "AǍCČDĎEĚGǦHȞIǏKǨLĽNŇOǑRŘSŠTŤUǓZŽaǎcčdďeěgǧhȟiǐjǰkǩlľnňoǒrřsštťuǔzžÜǙüǚƷǮʒǯ"),
   ('\u030f', "AȀEȄIȈOȌRȐUȔaȁeȅiȉoȍrȑuȕѴѶѵѷ"),
   ('\u0311', "AȂEȆIȊOȎRȒUȖaȃeȇiȋoȏrȓuȗ"),
   ('\u0313', "ΑἈΕἘΗἨΙἸΟὈΩὨαἀεἐηἠιἰοὀρῤυὐωὠ"),
   ('\u0314', "ΑἉΕἙΗἩΙἹΟὉΡῬΥὙΩὩαἁεἑηἡιἱοὁρῥυὑωὡ"),
   ('\u031b', "OƠUƯoơuư"),
   ('\u0323', "AẠBḄDḌEẸHḤIỊKḲLḶMṂNṆOỌRṚSṢTṬUỤVṾWẈYỴZẒaạbḅdḍeẹhḥiịkḳlḷmṃnṇoọrṛsṣtṭuụvṿwẉyỵzẓƠỢ"),
   ('\u0323', "ơợƯỰưự"),
   ('\u0324', "UṲuṳ"),
   ('\u0325', "AḀaḁ"),
   ('\u0326', "SȘTȚsștț"),
   ('\u0327', "CÇDḐEȨGĢHḨKĶLĻNŅRŖSŞTŢcçdḑeȩgģhḩkķlļnņrŗsştţ"),
   ('\u0328', "AĄEĘIĮOǪUŲaąeęiįoǫuų"),
   ('\u032d', "DḒEḘLḼNṊTṰUṶdḓeḙlḽnṋtṱuṷ"),
   ('\u032e', "HḪhḫ"),
   ('\u0330', "EḚIḬUṴeḛiḭuṵ"),
   ('\u0331', "BḆDḎKḴLḺNṈRṞTṮZẔbḇdḏhẖkḵlḻnṉrṟtṯzẕ"),
   ('\u0342', "αᾶηῆιῖυῦωῶϊῗϋῧἀἆἁἇἈἎἉἏἠἦἡἧἨἮἩἯἰἶἱἷἸἾἹἿὐὖὑὗὙὟὠὦὡὧὨὮὩὯ"),
   ('\u0345', "ΑᾼΗῌΩῼάᾴήῄαᾳηῃωῳώῴἀᾀἁᾁἂᾂἃᾃἄᾄἅᾅἆᾆἇᾇἈᾈἉᾉἊᾊἋᾋἌᾌἍᾍἎᾎἏᾏἠᾐἡᾑἢᾒἣᾓἤᾔἥᾕἦᾖἧᾗἨᾘἩᾙἪᾚἫᾛἬᾜἭᾝ"),
   ('\u0345', "ἮᾞἯᾟὠᾠὡᾡὢᾢὣᾣὤᾤὥᾥὦᾦὧᾧὨᾨὩᾩὪᾪὫᾫὬᾬὭᾭὮᾮὯᾯὰᾲὴῂὼῲᾶᾷῆῇῶῷ"),
   ('\u0653', "اآ"),
   ('\u0654', "اأوؤيئہۂےۓەۀ"),
   ('\u0655', "اإ"),
   ('\u093c', "नऩरऱळऴ"),
   ('\u09be', "\u09c7\u09cb"),
   ('\u09d7', "\u09c7\u09cc"),
   ('\u0b3e', "\u0b47\u0b4b"),
   ('\u0b56', "\u0b47\u0b48"),
   ('\u0b57', "\u0b47\u0b4c"),
   ('\u0bbe', "\u0bc6\u0bca\u0bc7\u0bcb"),
   ('\u0bd7', "ஒஔ\u0bc6\u0bcc"),
   ('\u0c56', "\u0c46\u0c48"),
   ('\u0cc2', "\u0cc6\u0cca"),
   ('\u0cd5', "\u0cbf\u0cc0\u0cc6\u0cc7\u0cca\u0ccb"),
   ('\u0cd6', "\u0cc6\u0cc8"),
   ('\u0d3e', "\u0d46\u0d4a\u0d47\u0d4b"),
   ('\u0d57', "\u0d46\u0d4c"),
   ('\u0dca', "\u0dd9\u0dda\u0ddc\u0ddd"),
   ('\u0dcf', "\u0dd9\u0ddc"),
   ('\u0ddf', "\u0dd9\u0dde"),
   ('\u102e', "ဥဦ"),
   ('\u1b35', "ᬅᬆᬇᬈᬉᬊᬋᬌᬍᬎᬑᬒ\u1b3a\u1b3b\u1b3c\u1b3d\u1b3e\u1b40\u1b3f\u1b41\u1b42\u1b43"),
   ('\u3099', "うゔかがきぎくぐけげこごさざしじすずせぜそぞただちぢつづてでとどはばひびふぶへべほぼゝゞウヴカガキギクグケゲコゴサザシジスズセゼソゾタダチヂツヅテデトドハバ"),
   ('\u3099', "ヒビフブヘベホボワヷヰヸヱヹヲヺヽヾ"),
   ('\u309a', "はぱひぴふぷへぺほぽハパヒピフプヘペホポ"),
   ('𑂺', "𑂙𑂚𑂛𑂜𑂥𑂫"),
   ('𑄧', "𑄱𑄮𑄲𑄯"),
   ('𑌾', "𑍇𑍋"),
   ('𑍗', "𑍇𑍌"),
   ('𑒰', "𑒹𑒼"),
   ('𑒺', "𑒹𑒻"),
   ('𑒽', "𑒹𑒾"),
   ('𑖯', "𑖸𑖺𑖹𑖻"),
   ('𑤰', "𑤵𑤸")]

/-- The pairs of a text's characters. -/
def pairsOf : List Char → List (Char × Char)
  | first :: second :: rest => (first, second) :: pairsOf rest
  | _ => []

/-- The composite of a letter and a mark. -/
def composite? (letter mark : Char) : Option Char :=
  (composites.filter (·.1 == mark)).findSome? fun (_, letters) =>
    ((pairsOf letters.toList).find? (·.1 == letter)).map (·.2)

/-- The letter and the mark that a composite stands for. -/
def parts? (c : Char) : Option (Char × Char) :=
  composites.findSome? fun (mark, letters) =>
    ((pairsOf letters.toList).find? (·.2 == c)).map fun pair => (pair.1, mark)

end FieldComposition.Text.NormalForm
