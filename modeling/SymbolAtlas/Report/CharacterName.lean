import SymbolAtlas.Report.Emoji

/-!
# Names of characters

Characters have names of words in capitals. Listed are those of the Latin, Greek and Cyrillic
letters, of punctuation, numbers, arrows, signs and pictures, and some names of control characters.
Many pictures are emoji of the same name. Han characters are named after their number.
-/

namespace SymbolAtlas.Report

/-- Names of characters, with semicolons between them. Where words stand with commas between them,
each of them makes a name. -/
def nameLines : List String := [
  "ACCOUNT,CARE,ELEMENT,IMAGE,ORIGINAL,SUBSET,SUPERSET OF;ACUTE,CIRCUMFLEX,GRAVE ACCENT",
  "ADDRESSED TO THE SUBJECT;ADI SHAKTI",
  "AKTIESELSKAB,ALERT,AMPERSAND,ANGLE,ANKH,APOSTROPHE,ASSERTION,ASTERISK,ASTERISM,AUBERGINE",
  "BACKSPACE,BEAVER,BECAUSE,BEL,BETWEEN,BILLIARDS,BISON,BOM,BOWTIE,BS,BULLET,BULLHORN",
  "BULLSEYE,CADUCEUS,CARET,CEDILLA,CERES,CHIRON,COLON,COMMA,COMPLEMENT,CONJUNCTION,CR,DEL",
  "DELETE,DIAERESIS,DIVIDES,DOCUMENT,DODO,EARTH,ELEVATOR,ELF,EOL,ESC,ESCAPE,ESTIMATES,EXCESS",
  "FAIRY,FENCER,FF,FISHEYE,FLOWER,FOLDER,FORCES,HANDBALL,HOMOTHETIC,HT,HUT,HYPHEN",
  "HYPHEN-MINUS,INCREMENT,INTEGRAL,INTERCALATE,INTERSECTION,JUGGLING,JUNO,JUPITER,KIWIFRUIT",
  "LF,LIGHTNING,LOZENGE,LRM,MACRON,MAGE,MAMMOTH,MAXIMIZE,MERCURY,MINIMIZE,MODELS,MULTIMAP",
  "MULTISET,NABLA,NAND,NBSP,NEL,NEPTUNE,NEUTER,NINJA,NL,NOR,NOTE,NUL,NULL,OPPOSITION,OVERLAP",
  "OVERLINE,PAGE,PAGES,PAGODA,PALLAS,PEDESTRIAN,PENTAGRAM,PITCHFORK,PLUTO,PRECEDES,PRIME",
  "PROPORTION,QUINCUNX,RAIN,RATIO,RESPONSE,RIFLE,RLM,SALTIRE,SATURN,SCOOTER,SCREEN,SCRUPLE",
  "SEAL,SEMICOLON,SEMISEXTILE,SESQUIQUADRATE,SEXTILE,SHRUG,SHY,SOLIDUS,SP,SPACE,STUPA",
  "SUCCEEDS,TAB,THEREFORE,THUNDERSTORM,TILDE,TRICOLON,TROLL,TRUE,UNDERTIE,UNION,URANUS",
  "VAMPIRE,VERSICLE,VESTA,VS16,VT,WHEEL,WRESTLERS,XOR,ZWJ,ZWNBSP,ZWNJ,ZWSP",
  "ALEF,BET,BOYS,COLLISION,DALET,DASH,DIVORCE,DIZZY,E-MAIL,ESTIMATED,FARSI,GIMEL,GIRLS SYMBOL",
  "LINK,MARRIAGE,MENS,SLEEPING,SMOKING,WOMENS SYMBOL",
  "ALL,ALMOST,APPROXIMATELY,ASYMPTOTICALLY,DELTA,GEOMETRICALLY,NOT,QUESTIONED,RING EQUAL TO",
  "ALMOST EQUAL OR EQUAL TO;ALTERNATE ONE-WAY LEFT WAY TRAFFIC",
  "ANGSTROM,AUSTRAL,BITCOIN,CAUTION,CEDI,CENT,COLON,CONSTRUCTION,COPYRIGHT,CRUZEIRO SIGN",
  "CURRENCY,DEGREE,DIVISION,DOLLAR,DONG,DRACHMA,EQUALS,EURO,EURO-CURRENCY,FACSIMILE SIGN",
  "GREATER-THAN,GUARANI,HRYVNIA,KELVIN,KIP,LARI,LESS-THAN,LIRA,MANAT,MICRO,MILL,MINUS SIGN",
  "MINUS-OR-PLUS,MULTIPLICATION,NAIRA,NOT,NUMBER,NUMERO,OCTAGONAL,OHM,OUNCE,PER,PERCENT SIGN",
  "PESETA,PESO,PILCROW,PLUS,PLUS-MINUS,POUND,PROHIBITED,REGISTERED,RUBLE,RUPEE,SECTION SIGN",
  "SOM,SPESMILO,TELEPHONE,TENGE,TUGRIK,WARNING,WON,YEN SIGN;ANTENNA WITH BARS",
  "ANTICLOCKWISE,CLOCKWISE CONTOUR INTEGRAL",
  "ANTICLOCKWISE,CLOCKWISE DOWNWARDS AND UPWARDS OPEN CIRCLE ARROWS",
  "ANTICLOCKWISE,CLOCKWISE OPEN CIRCLE ARROW;ANTICLOCKWISE,CLOCKWISE TOP SEMICIRCLE ARROW",
  "APPROACHES THE LIMIT;APPROXIMATELY BUT NOT ACTUALLY EQUAL TO",
  "APPROXIMATELY EQUAL TO OR THE IMAGE OF;ASCENDING,DESCENDING NODE",
  "ASTERISK,BULLET,DIAMOND,DOT,RING,STAR,TILDE OPERATOR;ASTRONOMICAL SYMBOL FOR URANUS",
  "AUTOMATED TELLER MACHINE;BACK OF ENVELOPE;BACK,END WITH LEFTWARDS ARROW ABOVE",
  "BACK-TILTED,FRONT-TILTED SHADOWED WHITE RIGHTWARDS ARROW;BACTRIAN CAMEL;BALL OF YARN",
  "BALLOON-SPOKED,HEAVY,LOW,TEARDROP-SPOKED ASTERISK;BALLOT BOLD SCRIPT X",
  "BALLOT BOX WITH BOLD CHECK;BALLOT BOX WITH BOLD SCRIPT X;BALLOT BOX WITH SCRIPT X",
  "BALLOT BOX WITH X;BALLOT BOX,X;BALLOT SCRIPT X;BANKNOTE WITH DOLLAR,EURO,POUND,YEN SIGN",
  "BAR OF SOAP;BASKETBALL AND HOOP;BEAMED ASCENDING,DESCENDING MUSICAL NOTES",
  "BEAMED EIGHTH,SIXTEENTH NOTES;BELL,SPEAKER WITH CANCELLATION STROKE;BLACK CENTRE WHITE STAR",
  "BLACK CIRCLE WITH TWO WHITE DOTS;BLACK CIRCLE WITH WHITE DOT RIGHT;BLACK CROSS ON SHIELD",
  "BLACK DIAMOND MINUS WHITE X;BLACK DROPLET,FOLDER,PUSHPIN,ROSETTE,SNOWMAN,TRUCK",
  "BLACK LEFTWARDS BULLET;BLACK LOWER,UPPER LEFT,RIGHT TRIANGLE;BLACK MOON LILITH",
  "BLACK RIGHTWARDS ARROWHEAD,BULLET;BLACK SAFETY SCISSORS;BLACK SKULL AND CROSSBONES",
  "BLACK UNIVERSAL RECYCLING SYMBOL",
  "BLACK,BLACK-FEATHERED,HEAVY,OPEN-OUTLINED,TEARDROP-BARBED,TRIANGLE-HEADED RIGHTWARDS ARROW",
  "WEDGE-TAILED,WHITE-FEATHERED RIGHTWARDS ARROW",
  "BLACK,WHITE CHESS BISHOP,KING,KNIGHT,PAWN,QUEEN,ROOK",
  "BLACK,WHITE CLUB,DIAMOND,HEART,SPADE SUIT",
  "BLACK,WHITE DIAMOND,FLORETTE,NIB,PARALLELOGRAM,PENNANT,RECTANGLE,SCISSORS,SQUARE,STAR",
  "BLACK,WHITE TELEPHONE;BLACK,WHITE DOWN,LEFT,RIGHT,UP POINTING BACKHAND INDEX",
  "BLACK,WHITE DOWN-POINTING,LEFT-POINTING,RIGHT-POINTING,UP-POINTING SMALL TRIANGLE",
  "BLACK,WHITE DOWN-POINTING,UP-POINTING TRIANGLE;BLACK,WHITE DRAUGHTS KING,MAN",
  "BLACK,WHITE FOUR POINTED STAR;BLACK,WHITE HARD SHELL FLOPPY DISK;BLACK,WHITE LEFT LANE MERGE",
  "BLACK,WHITE LEFT,RIGHT POINTING INDEX",
  "BLACK,WHITE LEFT-POINTING,RIGHT-POINTING POINTER,TRIANGLE;BLACK,WHITE QUESTION MARK ORNAMENT",
  "BLACK,WHITE SHOGI PIECE;BLACK,WHITE SMILING FACE;BLACK,WHITE SUN WITH RAYS",
  "BLACK,WHITE TOUCHTONE TELEPHONE;BLACK,WHITE TWO-WAY LEFT WAY TRAFFIC",
  "BLACK,WHITE VERTICAL RECTANGLE;BLACK-FEATHERED,HEAVY NORTH,SOUTH EAST ARROW",
  "BLACK-LETTER CAPITAL C,H,I,R,Z;BLACK-LETTER,SCRIPT CAPITAL H,I,R;BOUQUET OF FLOWERS",
  "BOWL OF HYGIEIA;BROKEN BAR;BUBBLE TEA;BULLHORN WITH SOUND WAVES;BYTE ORDER MARK;CADA UNA",
  "CANCELLATION,MULTIPLICATION X;CAR SLIDING;CARET INSERTION POINT;CARRIAGE RETURN",
  "CELTIC,DOTTED,MALTESE CROSS;CENTRE LINE SYMBOL;CHARACTER TIE",
  "CHARACTER,HORIZONTAL,LINE,VERTICAL TABULATION;CHART WITH UPWARDS TREND AND YEN SIGN",
  "CHECK,QUOTATION,REFERENCE,SERVICE MARK;CHEERING MEGAPHONE;CHI RHO",
  "CIRCLE WITH ALL BUT UPPER LEFT QUADRANT BLACK;CIRCLE WITH LEFT,LOWER,RIGHT,UPPER HALF BLACK",
  "CIRCLE WITH UPPER RIGHT QUADRANT BLACK;CIRCLE,SQUARE WITH LEFT,RIGHT HALF BLACK",
  "CIRCLE,SQUARE WITH VERTICAL FILL;CIRCLED ASTERISK,DOT,RING OPERATOR",
  "CIRCLED CROSS FORMEE WITH FOUR,TWO DOTS;CIRCLED CROSS FORMEE,POMMEE;CIRCLED CROSSING LANES",
  "CIRCLED DIVISION SLASH;CIRCLED HEAVY WHITE RIGHTWARDS ARROW;CIRCLED INFORMATION SOURCE",
  "CIRCLED OPEN CENTRE EIGHT POINTED STAR;CIRCLED TIMES;CIRCLED,COLON,STAR EQUALS",
  "CIRCLED,DOT,SQUARED MINUS,PLUS;CIRCLED,EM,EN,FIGURE,SWUNG DASH",
  "CIRCLED,OUTLINED,SHADOWED WHITE STAR;CLAMSHELL MOBILE PHONE;CLAPPING,OPEN HANDS SIGN",
  "CLOCK FACE EIGHT,ELEVEN,FIVE,FOUR,NINE,ONE,SEVEN,SIX,TEN,THREE,TWELVE,TWO OCLOCK",
  "CLOCK FACE EIGHT-THIRTY,ELEVEN-THIRTY,FIVE-THIRTY,FOUR-THIRTY,NINE-THIRTY,ONE-THIRTY",
  "CLOCK FACE SEVEN-THIRTY,SIX-THIRTY,TEN-THIRTY,THREE-THIRTY,TWELVE-THIRTY,TWO-THIRTY",
  "CLOCKWISE RIGHT AND LEFT SEMICIRCLE ARROWS",
  "CLOCKWISE RIGHTWARDS AND LEFTWARDS OPEN CIRCLE ARROWS",
  "CLOCKWISE RIGHTWARDS AND LEFTWARDS OPEN CIRCLE ARROWS WITH CIRCLED ONE OVERLAY",
  "CLOCKWISE,CONTOUR,DOUBLE,SURFACE,TRIPLE,VOLUME INTEGRAL;CLOSE UP",
  "COMBINING ACUTE,CIRCUMFLEX,GRAVE ACCENT;COMBINING DIAERESIS",
  "COMBINING,MINUS,NOT,REVERSED,TRIPLE TILDE;COMMERCIAL AT;COMMERCIAL MINUS SIGN",
  "CONSTRUCTION WORKER;CONTAINS AS MEMBER;CONTAINS AS NORMAL SUBGROUP",
  "CONTAINS AS NORMAL SUBGROUP OR EQUAL TO;CONTAINS WITH LONG HORIZONTAL STROKE",
  "CONTAINS WITH OVERBAR;CONTAINS WITH VERTICAL BAR AT END OF HORIZONTAL STROKE",
  "COPTIC CAPITAL,SMALL LETTER DEI,FEI,GANGIA,HORI,KHEI,SHEI,SHIMA",
  "CORRESPONDS,EQUIANGULAR,EQUIVALENT,IDENTICAL,PARALLEL,PROPORTIONAL TO",
  "CROSS OF JERUSALEM,LORRAINE;CROSS POMMEE;CROSS POMMEE WITH HALF-CIRCLE BELOW;CROSSING LANES",
  "CUBE,FOURTH ROOT;CUP ON BLACK SQUARE;CURLY,N-ARY LOGICAL AND,OR;CURRY AND RICE",
  "CURVED STEM PARAGRAPH SIGN ORNAMENT",
  "CYRILLIC CAPITAL,SMALL LETTER A,BE,CHE,DE,DJE,DZE,DZHE,E,EF,EL,EM,EN,ER,ES,GHE,GJE,HA,I,IE",
  "CYRILLIC CAPITAL,SMALL LETTER IO,JE,KA,KJE,LJE,NJE,O,PE,SHA,SHCHA,TE,TSE,TSHE,U,VE,YA,YERU",
  "CYRILLIC CAPITAL,SMALL LETTER YI,YU,ZE,ZHE",
  "CYRILLIC CAPITAL,SMALL LETTER BYELORUSSIAN-UKRAINIAN,SHORT I",
  "CYRILLIC CAPITAL,SMALL LETTER HARD,SOFT SIGN;CYRILLIC CAPITAL,SMALL LETTER I,IE WITH GRAVE",
  "CYRILLIC CAPITAL,SMALL LETTER SHORT U;CYRILLIC CAPITAL,SMALL LETTER UKRAINIAN IE",
  "DASHED TRIANGLE-HEADED RIGHTWARDS ARROW;DECREASE,INCREASE FONT SIZE SYMBOL",
  "DEGREE CELSIUS,FAHRENHEIT;DESKTOP WINDOW;DIE FACE-1,FACE-2,FACE-3,FACE-4,FACE-5,FACE-6",
  "DIESEL LOCOMOTIVE;DIFFERENCE BETWEEN",
  "DIGIT,SUPERSCRIPT EIGHT,FIVE,FOUR,NINE,ONE,SEVEN,SIX,THREE,TWO,ZERO",
  "DIGRAM FOR GREATER,LESSER YANG,YIN",
  "DINGBAT CIRCLED SANS-SERIF DIGIT EIGHT,FIVE,FOUR,NINE,ONE,SEVEN,SIX,THREE,TWO",
  "DINGBAT CIRCLED SANS-SERIF NUMBER TEN",
  "DINGBAT NEGATIVE CIRCLED DIGIT EIGHT,FIVE,FOUR,NINE,ONE,SEVEN,SIX,THREE,TWO",
  "DINGBAT NEGATIVE CIRCLED NUMBER TEN",
  "DINGBAT NEGATIVE CIRCLED SANS-SERIF DIGIT EIGHT,FIVE,FOUR,NINE,ONE,SEVEN,SIX,THREE,TWO",
  "DINGBAT NEGATIVE CIRCLED SANS-SERIF NUMBER TEN;DISABLED CAR;DISAPPOINTED BUT RELIEVED FACE",
  "DISGUISED,FREEZING,GIRAFFE,OVERHEATED,ZEBRA FACE;DIVISION SLASH,TIMES;DNA DOUBLE HELIX",
  "DO NOT LITTER SYMBOL;DOCUMENT WITH PICTURE,TEXT;DOCUMENT WITH TEXT AND PICTURE",
  "DOES NOT CONTAIN AS MEMBER;DOES NOT CONTAIN AS NORMAL SUBGROUP",
  "DOES NOT CONTAIN AS NORMAL SUBGROUP OR EQUAL;DOES NOT DIVIDE,FORCE,PRECEDE,PROVE,SUCCEED",
  "DOES NOT PRECEDE,SUCCEED OR EQUAL;DOTTED,LARGE CIRCLE",
  "DOUBLE DAGGER,INTERSECTION,PRIME,SUBSET,SUPERSET,UNION;DOUBLE LOW,VERTICAL LINE",
  "DOUBLE VERTICAL BAR DOUBLE RIGHT TURNSTILE;DOUBLE,GREEK,INVERTED QUESTION MARK",
  "DOUBLE,SINGLE HIGH-REVERSED-9,LOW-9 QUOTATION MARK",
  "DOUBLE-STRUCK CAPITAL C,GAMMA,H,N,P,PI,Q,R,Z;DOUBLE-STRUCK ITALIC CAPITAL D",
  "DOUBLE-STRUCK ITALIC SMALL D,E,I,J;DOUBLE-STRUCK N-ARY SUMMATION;DOUBLE-STRUCK SMALL GAMMA,PI",
  "DOUBLED FEMALE,MALE SIGN;DOWN,UP RIGHT DIAGONAL ELLIPSIS;DOWN,UP TACK",
  "DOWN-POINTING,UP-POINTING RED TRIANGLE;DOWN-POINTING,UP-POINTING SMALL RED TRIANGLE",
  "DOWNWARD FACING HOOK;DOWNWARD FACING HOOK WITH DOT;DOWNWARD FACING NOTCHED HOOK",
  "DOWNWARD FACING NOTCHED HOOK WITH DOT;DOWNWARDS ARROW LEFTWARDS OF UPWARDS ARROW",
  "DOWNWARDS ARROW WITH CORNER LEFTWARDS;DOWNWARDS ZIGZAG ARROW",
  "DOWNWARDS,LEFTWARDS,RIGHTWARDS,UPWARDS ARROW",
  "DOWNWARDS,LEFTWARDS,RIGHTWARDS,UPWARDS ARROW FROM,TO BAR",
  "DOWNWARDS,LEFTWARDS,RIGHTWARDS,UPWARDS DASHED,DOUBLE,TRIPLE,WHITE ARROW",
  "DOWNWARDS,LEFTWARDS,RIGHTWARDS,UPWARDS PAIRED ARROWS",
  "DOWNWARDS,LEFTWARDS,RIGHTWARDS,UPWARDS TWO HEADED ARROW",
  "DOWNWARDS,UPWARDS ARROW WITH DOUBLE STROKE",
  "DOWNWARDS,UPWARDS ARROW WITH TIP LEFTWARDS,RIGHTWARDS",
  "DOWNWARDS,UPWARDS HARPOON WITH BARB LEFTWARDS,RIGHTWARDS;DRAFTING POINT RIGHTWARDS ARROW",
  "DRIVE SLOW SIGN;DRUM WITH DRUMSTICKS;EAR OF MAIZE",
  "EARTH GLOBE AMERICAS,ASIA-AUSTRALIA,EUROPE-AFRICA;EAST,WEST SYRIAC CROSS",
  "EIGHT PETALLED OUTLINED BLACK FLORETTE;EIGHT POINTED PINWHEEL STAR",
  "EIGHT POINTED RECTILINEAR BLACK STAR;EIGHT TEARDROP-SPOKED PROPELLER ASTERISK",
  "EIGHTH,QUARTER NOTE;ELECTRIC LIGHT BULB;ELECTRIC TORCH;ELEMENT OF WITH DOT ABOVE",
  "ELEMENT OF WITH LONG HORIZONTAL STROKE;ELEMENT OF WITH OVERBAR,UNDERBAR",
  "ELEMENT OF WITH TWO HORIZONTAL STROKES",
  "ELEMENT OF WITH VERTICAL BAR AT END OF HORIZONTAL STROKE;EM,EN QUAD",
  "EM,EN,FIGURE,FOUR-PER-EM,HAIR,IDEOGRAPHIC,NO-BREAK,PUNCTUATION,SIX-PER-EM,THIN SPACE",
  "THREE-PER-EM SPACE;EMOJI COMPONENT BALD;EMOJI COMPONENT CURLY,RED,WHITE HAIR",
  "EMOJI MODIFIER FITZPATRICK TYPE-1-2,TYPE-3,TYPE-4,TYPE-5,TYPE-6",
  "EMPTY DOCUMENT,NOTE,PAGE,PAGES,SET;EMPTY NOTE PAD,PAGE;END OF LINE,PROOF,TEXT",
  "ENVELOPE WITH DOWNWARDS ARROW ABOVE;ENVELOPE WITH LIGHTNING;EQUAL AND PARALLEL TO",
  "EQUAL TO BY DEFINITION;EQUAL TO OR GREATER-THAN,LESS-THAN,PRECEDES,SUCCEEDS;EQUALS COLON",
  "EULER,PLANCK CONSTANT;EXTRATERRESTRIAL ALIEN;FACE HOLDING BACK TEARS;FACE MASSAGE,PALM",
  "FACE SAVOURING DELICIOUS FOOD;FACE THROWING A KISS;FACE WITH COLD SWEAT;FACE WITH COWBOY HAT",
  "FACE WITH FINGER COVERING CLOSED LIPS;FACE WITH LOOK OF TRIUMPH;FACE WITH NO GOOD GESTURE",
  "FACE WITH OK GESTURE;FACE WITH ONE EYEBROW RAISED;FACE WITH OPEN MOUTH AND COLD SWEAT",
  "FACE WITH OPEN MOUTH VOMITING;FACE WITH PARTY HORN AND PARTY HAT;FACE WITH PLEADING EYES",
  "FACE WITH STUCK-OUT TONGUE;FACE WITH STUCK-OUT TONGUE AND TIGHTLY-CLOSED EYES",
  "FACE WITH STUCK-OUT TONGUE AND WINKING EYE;FACE WITH UNEVEN EYES AND WAVY MOUTH",
  "FALLING DIAGONAL IN WHITE CIRCLE IN BLACK SQUARE;FATHER,MOTHER CHRISTMAS;FAX,PRINTER ICON",
  "FEMININE,MASCULINE ORDINAL INDICATOR;FIREWORK SPARKLER;FIRST,LAST QUARTER MOON SYMBOL",
  "FIRST,SECOND,THIRD PLACE MEDAL;FISH CAKE WITH SWIRL DESIGN;FISTED,OK,WAVING HAND SIGN",
  "FIVE,FOUR,THREE,TWO DOT PUNCTUATION;FLORAL HEART;FLOWER PUNCTUATION MARK",
  "FLYING,STAMPED ENVELOPE;FOR ALL;FORM,LINE FEED",
  "FOUR BALLOON-SPOKED,CLUB-SPOKED,TEARDROP-SPOKED ASTERISK;FOUR DOT MARK;FRACTION NUMERATOR ONE",
  "FRACTION SLASH;FRAME WITH AN X;FRAME WITH TILES;FRENCH FRANC SIGN;FULL STOP",
  "FULL,NEW MOON SYMBOL;GEAR WITH HANDLES;GEAR WITHOUT HUB;GEOMETRIC PROPORTION",
  "GEOMETRICALLY,NOT,STRICTLY EQUIVALENT TO;GERMAN PENNY SIGN;GREATER-THAN EQUAL TO OR LESS-THAN",
  "GREATER-THAN OR LESS-THAN;GREATER-THAN,LESS-THAN BUT NOT EQUAL,EQUIVALENT TO",
  "GREATER-THAN,LESS-THAN OVER EQUAL TO;GREATER-THAN,LESS-THAN WITH DOT",
  "GREATER-THAN,LESS-THAN,PRECEDES,SUCCEEDS OR EQUAL,EQUIVALENT TO;GREEK ANO TELEIA",
  "GREEK BETA,KAI,KAPPA,PHI,PI,RHO,THETA SYMBOL;GREEK CAPITAL KAI,THETA SYMBOL",
  "GREEK CAPITAL LETTER YOT;GREEK CAPITAL LUNATE SIGMA SYMBOL",
  "GREEK CAPITAL,SMALL DOTTED,REVERSED LUNATE SIGMA SYMBOL",
  "GREEK CAPITAL,SMALL LETTER ALPHA,BETA,CHI,DELTA,EPSILON,ETA,GAMMA,HETA,IOTA,KAPPA,LAMDA,MU",
  "GREEK CAPITAL,SMALL LETTER NU,OMEGA,OMICRON,PHI,PI,PSI,RHO,SAN,SHO,SIGMA,TAU,THETA,UPSILON",
  "GREEK CAPITAL,SMALL LETTER XI,ZETA",
  "GREEK CAPITAL,SMALL LETTER ALPHA,EPSILON,ETA,IOTA,OMEGA,OMICRON,UPSILON WITH TONOS",
  "GREEK CAPITAL,SMALL LETTER ARCHAIC SAMPI",
  "GREEK CAPITAL,SMALL LETTER IOTA,UPSILON WITH DIALYTIKA,TONOS",
  "GREEK CAPITAL,SMALL LETTER PAMPHYLIAN DIGAMMA",
  "GREEK CAPITAL,SMALL REVERSED DOTTED LUNATE SIGMA SYMBOL;GREEK DIALYTIKA TONOS",
  "GREEK LETTER ARCHAIC KOPPA;GREEK LETTER DIGAMMA,KOPPA,SAMPI,STIGMA,YOT",
  "GREEK LOWER NUMERAL SIGN;GREEK LUNATE EPSILON,SIGMA SYMBOL;GREEK NUMERAL SIGN",
  "GREEK REVERSED LUNATE EPSILON SYMBOL;GREEK RHO WITH STROKE SYMBOL",
  "GREEK SMALL LETTER ARCHAIC KOPPA;GREEK SMALL LETTER DIGAMMA,KOPPA,SAMPI,STIGMA",
  "GREEK SMALL LETTER FINAL SIGMA;GREEK SMALL LETTER IOTA,UPSILON WITH DIALYTIKA AND TONOS",
  "GREEK TONOS,YPOGEGRAMMENI;GREEK UPSILON WITH ACUTE,DIAERESIS AND HOOK SYMBOL",
  "GREEK UPSILON WITH HOOK SYMBOL;GRINNING FACE WITH ONE LARGE AND ONE SMALL EYE",
  "GRINNING FACE WITH STAR EYES;HAMMER AND SICKLE;HAND WITH INDEX AND MIDDLE FINGERS CROSSED",
  "HAPPY PERSON RAISING ONE HAND;HARD DISK;HEADSTONE GRAVEYARD SYMBOL;HEART WITH TIP ON THE LEFT",
  "HEAVY BALLOT X;HEAVY BLACK CURVED DOWNWARDS,UPWARDS AND RIGHTWARDS ARROW;HEAVY BLACK HEART",
  "HEAVY BLACK-FEATHERED NORTH,SOUTH EAST ARROW",
  "HEAVY BLACK-FEATHERED,ROUND-TIPPED,TEARDROP-SHANKED,TRIANGLE-HEADED RIGHTWARDS ARROW",
  "HEAVY WEDGE-TAILED,WIDE-HEADED RIGHTWARDS ARROW;HEAVY CHEVRON SNOWFLAKE",
  "HEAVY CIRCLE WITH STROKE AND TWO DOTS ABOVE;HEAVY CONCAVE-POINTED BLACK RIGHTWARDS ARROW",
  "HEAVY DASHED TRIANGLE-HEADED RIGHTWARDS ARROW",
  "HEAVY DOUBLE,SINGLE COMMA QUOTATION MARK ORNAMENT",
  "HEAVY DOUBLE,SINGLE TURNED COMMA QUOTATION MARK ORNAMENT",
  "HEAVY EIGHT POINTED RECTILINEAR BLACK STAR;HEAVY EIGHT TEARDROP-SPOKED PROPELLER ASTERISK",
  "HEAVY EXCLAMATION MARK SYMBOL;HEAVY FOUR BALLOON-SPOKED ASTERISK",
  "HEAVY LEFT-POINTING,RIGHT-POINTING ANGLE QUOTATION MARK ORNAMENT",
  "HEAVY LOW DOUBLE,SINGLE COMMA QUOTATION MARK ORNAMENT;HEAVY OPEN CENTRE CROSS",
  "HEAVY OUTLINED BLACK STAR;HEAVY SPARKLE;HEAVY TEARDROP-SPOKED ASTERISK",
  "HEAVY TEARDROP-SPOKED PINWHEEL ASTERISK;HEAVY WHITE DOWN-POINTING TRIANGLE",
  "HEAVY,LIGHT,MEDIUM VERTICAL BAR",
  "HEAVY,MEDIUM LEFT-POINTING,RIGHT-POINTING ANGLE BRACKET ORNAMENT",
  "HEAVY,NOTCHED LOWER,UPPER RIGHT-SHADOWED WHITE RIGHTWARDS ARROW",
  "HEAVY,OUTLINED GREEK,LATIN CROSS;HEAVY,WHITE EXCLAMATION MARK ORNAMENT",
  "HERMITIAN CONJUGATE MATRIX;HIGH VOLTAGE SIGN;HIGH,LOW BRIGHTNESS SYMBOL",
  "HIGH-SPEED TRAIN WITH BULLET NOSE;HISTORIC SITE;HORIZONTAL BAR,ELLIPSIS",
  "HORIZONTAL,VERTICAL MALE WITH STROKE SIGN;HOUSE BUILDING;HUNDRED POINTS SYMBOL",
  "HYPHEN,INVERSE,TRIANGULAR,WHITE BULLET;HYPHENATION POINT;I LOVE YOU HAND SIGN;ICE CUBE",
  "IMAGE OF OR APPROXIMATELY EQUAL TO;INDIAN RUPEE SIGN",
  "INPUT SYMBOL FOR LATIN CAPITAL,SMALL LETTERS;INPUT SYMBOL FOR LATIN LETTERS",
  "INPUT SYMBOL FOR NUMBERS,SYMBOLS;INTERLOCKED FEMALE AND MALE SIGN",
  "INVERSE,MEDIUM,SHADOWED WHITE CIRCLE;INVERTED LAZY S;INVERTED OHM SIGN",
  "INVERTED PENTAGRAM,UNDERTIE;INVERTED,QUESTION EXCLAMATION MARK;JAPANESE BANK SYMBOL",
  "JIGSAW PUZZLE PIECE;KEYBOARD AND MOUSE;KEYCAP TEN;KISSING CAT FACE WITH CLOSED EYES",
  "KNEELING,STANDING PERSON;L B BAR SYMBOL;LACROSSE STICK AND BALL;LARGE RED CIRCLE",
  "LATIN CAPITAL LETTER I WITH DOT ABOVE;LATIN CAPITAL LETTER SHARP S",
  "LATIN CAPITAL,SMALL LETTER A,AE,B,C,D,E,ENG,ETH,F,G,H,I,J,K,L,M,N,O,P,Q,R,S,T,THORN,U,V,W",
  "LATIN CAPITAL,SMALL LETTER X,Y,Z",
  "LATIN CAPITAL,SMALL LETTER A,C,E,G,H,I,J,O,S,U,W,Y WITH CIRCUMFLEX",
  "LATIN CAPITAL,SMALL LETTER A,C,E,I,L,N,O,R,S,U,Y,Z WITH ACUTE",
  "LATIN CAPITAL,SMALL LETTER A,E,G,I,O,U WITH ACUTE,BREVE,CARON,CIRCUMFLEX,MACRON,STROKE",
  "LATIN CAPITAL,SMALL LETTER A,E,I,O,U WITH ACUTE,BREVE,CARON,CIRCUMFLEX,DIAERESIS,GRAVE",
  "LATIN CAPITAL,SMALL LETTER A,E,I,O,U WITH MACRON,OGONEK,STROKE,TILDE",
  "LATIN CAPITAL,SMALL LETTER A,E,I,O,U,Y WITH ACUTE,CIRCUMFLEX,DIAERESIS,GRAVE,MACRON,STROKE",
  "LATIN CAPITAL,SMALL LETTER A,E,I,O,U,Y WITH TILDE",
  "LATIN CAPITAL,SMALL LETTER A,U WITH RING ABOVE",
  "LATIN CAPITAL,SMALL LETTER C,D,E,H,L,O,R,T,Z WITH CARON,STROKE",
  "LATIN CAPITAL,SMALL LETTER C,E,G,Z WITH DOT ABOVE",
  "LATIN CAPITAL,SMALL LETTER C,G,K,L,N,R,S,T WITH CARON,CEDILLA",
  "LATIN CAPITAL,SMALL LETTER L WITH MIDDLE DOT;LATIN CAPITAL,SMALL LETTER N WITH TILDE",
  "LATIN CAPITAL,SMALL LETTER O,U WITH DOUBLE ACUTE;LATIN CAPITAL,SMALL LIGATURE IJ,OE",
  "LATIN SMALL LETTER DOTLESS I;LATIN SMALL LETTER KRA;LATIN SMALL LETTER LONG,SHARP S",
  "LATIN SMALL LETTER N PRECEDED BY APOSTROPHE;LATIN SMALL LETTER REVERSED C",
  "LATIN SMALL LIGATURE FI;LEFT CLOSED ENTRY;LEFT HALF CIRCLE WITH DOT",
  "LEFT HALF CIRCLE WITH FOUR,THREE,TWO DOTS;LEFT RIGHT ARROW WITH DOUBLE VERTICAL STROKE",
  "LEFT RIGHT ARROW WITH STROKE;LEFT RIGHT ARROW WITH VERTICAL STROKE",
  "LEFT RIGHT DOUBLE ARROW WITH STROKE;LEFT RIGHT DOUBLE,OPEN-HEADED,WAVE ARROW",
  "LEFT WRITING HAND;LEFT,LOWER,UPPER HALF CIRCLE;LEFT,RIGHT ANGER,SPEECH,THOUGHT BUBBLE",
  "LEFT,RIGHT CURLY,SQUARE BRACKET;LEFT,RIGHT DOUBLE,SINGLE QUOTATION MARK",
  "LEFT,RIGHT HALF BLACK CIRCLE;LEFT,RIGHT HAND TELEPHONE RECEIVER",
  "LEFT,RIGHT NORMAL FACTOR SEMIDIRECT PRODUCT;LEFT,RIGHT PARENTHESIS,TACK",
  "LEFT,RIGHT SEMIDIRECT PRODUCT;LEFT,RIGHT SQUARE BRACKET WITH QUILL",
  "LEFT-HANDED,RIGHT-HANDED INTERLACED PENTAGRAM",
  "LEFT-POINTING,RIGHT-POINTING DOUBLE ANGLE QUOTATION MARK",
  "LEFT-POINTING,RIGHT-POINTING MAGNIFYING GLASS;LEFT-SHADED,RIGHT-SHADED WHITE RIGHTWARDS ARROW",
  "LEFT-TO-RIGHT,RIGHT-TO-LEFT EMBEDDING,MARK,OVERRIDE;LEFTWARDS ARROW OVER RIGHTWARDS ARROW",
  "LEFTWARDS ARROW TO BAR OVER RIGHTWARDS ARROW TO BAR;LEFTWARDS HARPOON OVER RIGHTWARDS HARPOON",
  "LEFTWARDS,RIGHTWARDS ARROW WITH DOUBLE VERTICAL STROKE",
  "LEFTWARDS,RIGHTWARDS ARROW WITH HOOK,LOOP,STROKE,TAIL",
  "LEFTWARDS,RIGHTWARDS ARROW WITH VERTICAL STROKE",
  "LEFTWARDS,RIGHTWARDS DASHED,DOUBLE,OPEN-HEADED,SQUIGGLE,TRIPLE,WAVE,WHITE ARROW",
  "LEFTWARDS,RIGHTWARDS DOUBLE ARROW WITH STROKE",
  "LEFTWARDS,RIGHTWARDS HARPOON WITH BARB DOWNWARDS,UPWARDS;LESS-THAN EQUAL TO OR GREATER-THAN",
  "LESS-THAN OR GREATER-THAN;LIGHT CHECK MARK;LIGHT LEFT,RIGHT TORTOISE SHELL BRACKET ORNAMENT",
  "LIGHTNING MOOD;LIGHTNING MOOD BUBBLE;LINE,PARAGRAPH SEPARATOR;LIVRE TOURNOIS SIGN",
  "LOGICAL AND,OR;LOW,NEW,NEXT,PROPERTY,VERTICAL LINE;LOWER LEFT,RIGHT PENCIL,TRIANGLE",
  "LOWER,UPPER BLADE SCISSORS;LOWER,UPPER HALF INVERSE WHITE CIRCLE",
  "LOWER,UPPER LEFT,RIGHT QUADRANT CIRCULAR ARC;LOWER,UPPER LEFT,RIGHT TRIANGLE",
  "LOWER,UPPER RIGHT DROP-SHADOWED,SHADOWED WHITE SQUARE",
  "LOWER,UPPER RIGHT SHADOWED WHITE CIRCLE,SQUARE;MALE AND FEMALE SIGN",
  "MALE WITH STROKE AND MALE AND FEMALE SIGN;MALE WITH STROKE SIGN;MAP SYMBOL FOR LIGHTHOUSE",
  "MATE DRINK;MEASURED BY;MEASURED,RIGHT,SPHERICAL ANGLE;MEDIUM BLACK CIRCLE",
  "MEDIUM FLATTENED LEFT,RIGHT PARENTHESIS ORNAMENT;MEDIUM LEFT,RIGHT CURLY BRACKET ORNAMENT",
  "MEDIUM LEFT,RIGHT PARENTHESIS ORNAMENT;MEDIUM SMALL WHITE CIRCLE;MIDDLE DOT",
  "MIDLINE HORIZONTAL ELLIPSIS;MOBILE PHONE WITH RIGHTWARDS ARROW AT LEFT;MODERN PENTATHLON",
  "MONOGRAM FOR YANG,YIN;MOOD BUBBLE;MUCH,NOT GREATER-THAN,LESS-THAN;MULTIPLE MUSICAL NOTES",
  "MULTISET MULTIPLICATION,UNION;MUSIC FLAT,NATURAL,SHARP SIGN;MUSICAL KEYBOARD WITH JACKS",
  "MUSICAL SYMBOL G CLEF;N-ARY COPRODUCT,INTERSECTION,PRODUCT,SUMMATION,UNION",
  "NARROW NO-BREAK SPACE;NEGATED DOUBLE VERTICAL BAR DOUBLE RIGHT TURNSTILE",
  "NEITHER A SUBSET,SUPERSET OF NOR EQUAL TO;NEITHER APPROXIMATELY NOR ACTUALLY EQUAL TO",
  "NEITHER GREATER-THAN NOR LESS-THAN;NEITHER GREATER-THAN,LESS-THAN NOR EQUAL,EQUIVALENT TO",
  "NEITHER LESS-THAN NOR GREATER-THAN;NEW SHEQEL SIGN;NO ONE UNDER EIGHTEEN SYMBOL;NO PIRACY",
  "NO SMOKING SYMBOL;NON-BREAKING,SOFT HYPHEN;NON-POTABLE,POTABLE WATER SYMBOL",
  "NORDIC,TRADE MARK SIGN;NORMAL SUBGROUP OF;NORMAL SUBGROUP OF OR EQUAL TO",
  "NORTH WEST ARROW TO CORNER;NORTH WEST ARROW TO LONG BAR;NORTH,SOUTH EAST,WEST ARROW",
  "NORTH,SOUTH EAST,WEST DOUBLE ARROW;NORTHEAST-POINTING,UP-POINTING AIRPLANE",
  "NOT A SUBSET,SUPERSET OF;NOT ALMOST,ASYMPTOTICALLY EQUAL TO;NOT AN ELEMENT OF",
  "NOT IDENTICAL,PARALLEL TO;NOT NORMAL SUBGROUP OF;NOT NORMAL SUBGROUP OF OR EQUAL TO",
  "NOT SQUARE IMAGE,ORIGINAL OF OR EQUAL TO;NOT TRUE",
  "NOTCHED LEFT,RIGHT SEMICIRCLE WITH THREE DOTS;NOTE PAD,PAGE;OBJECT REPLACEMENT CHARACTER",
  "OLD PERSONAL COMPUTER;ON WITH EXCLAMATION MARK WITH LEFT RIGHT ARROW ABOVE",
  "ONCOMING FIRE ENGINE;ONE,TWO BUTTON MOUSE;ONE,TWO DOT LEADER;OPEN CENTRE ASTERISK,CROSS",
  "OPEN CENTRE BLACK STAR;OPEN CENTRE TEARDROP-SPOKED ASTERISK;OPEN FOLDER,LOCK;OPTICAL DISC",
  "OPTICAL DISC ICON;OUTLINED BLACK STAR;PAGE WITH CIRCLED TEXT;PARTIAL DIFFERENTIAL",
  "PARTIALLY-RECYCLED,RECYCLED PAPER SYMBOL;PEN OVER STAMPED ENVELOPE;PER MILLE SIGN",
  "PER TEN THOUSAND SIGN;PERMANENT PAPER SIGN;PERSON BOWING DEEPLY;PERSON CLIMBING,FROWNING",
  "PERSON DOING CARTWHEEL;PERSON IN LOTUS POSITION;PERSON IN STEAMY ROOM",
  "PERSON RAISING BOTH HANDS IN CELEBRATION;PERSON WITH FOLDED HANDS;PERSON WITH HEADSCARF",
  "PERSONAL COMPUTER;PICKUP TRUCK;PINCHED FINGERS;PINWHEEL STAR;PLANCK CONSTANT OVER TWO PI",
  "PLAYGROUND SLIDE;POCKET CALCULATOR;POLICE CARS REVOLVING LIGHT;POLICE OFFICER",
  "POP DIRECTIONAL FORMATTING;PORTABLE STEREO;PRECEDES,SUCCEEDS BUT NOT EQUIVALENT TO",
  "PRECEDES,SUCCEEDS UNDER RELATION;PRESCRIPTION TAKE;PUBLIC ADDRESS LOUDSPEAKER",
  "PUT LITTER IN ITS PLACE SYMBOL;QUADRUPLE,REVERSED,TRIPLE PRIME;RECREATIONAL VEHICLE",
  "RECYCLING SYMBOL FOR GENERIC MATERIALS",
  "RECYCLING SYMBOL FOR TYPE-1,TYPE-2,TYPE-3,TYPE-4,TYPE-5,TYPE-6,TYPE-7 PLASTICS",
  "RED GIFT ENVELOPE;REPLACEMENT CHARACTER;RESTRICTED LEFT ENTRY-1,ENTRY-2;REVERSE SOLIDUS",
  "REVERSED DOUBLE,TRIPLE PRIME;REVERSED PILCROW SIGN;REVERSED RAISED HAND WITH FINGERS SPLAYED",
  "REVERSED ROTATED FLORAL HEART BULLET;REVERSED SANS-SERIF CAPITAL L;REVERSED SEMICOLON",
  "REVERSED THUMBS DOWN,UP SIGN;REVERSED TILDE EQUALS;REVERSED VICTORY HAND;RIGHT ANGLE WITH ARC",
  "RIGHT ARROW WITH SMALL CIRCLE;RIGHT SPEAKER WITH ONE SOUND WAVE",
  "RIGHT SPEAKER WITH THREE SOUND WAVES;RIGHT SPEAKER,TRIANGLE",
  "RIGHTWARDS ARROW OVER LEFTWARDS ARROW;RIGHTWARDS ARROW WITH CORNER DOWNWARDS",
  "RIGHTWARDS HARPOON OVER LEFTWARDS HARPOON;RIGHTWARDS WHITE ARROW FROM WALL;RING BUOY",
  "RING IN EQUAL TO;RINGING BELL;ROLLER SKATE",
  "ROMAN NUMERAL EIGHT,ELEVEN,FIFTY,FIVE,FOUR,NINE,ONE,SEVEN,SIX,TEN,THREE,TWELVE,TWO",
  "ROMAN NUMERAL FIFTY EARLY FORM;ROMAN NUMERAL FIFTY,FIVE,ONE,TEN THOUSAND",
  "ROMAN NUMERAL FIVE,ONE HUNDRED,THOUSAND;ROMAN NUMERAL ONE HUNDRED THOUSAND",
  "ROMAN NUMERAL ONE THOUSAND C D;ROMAN NUMERAL REVERSED ONE HUNDRED;ROMAN NUMERAL SIX LATE FORM",
  "ROTATED CAPITAL Q;ROTATED FLORAL HEART BULLET;ROTATED HEAVY BLACK HEART BULLET",
  "SAKE BOTTLE AND CUP;SALT SHAKER;SCRIPT CAPITAL B,E,F,H,I,L,M,P,R;SCRIPT SMALL E,G,L,O",
  "SERIOUS FACE WITH SYMBOLS COVERING MOUTH;SET MINUS;SHADOWED WHITE LATIN CROSS",
  "SHOCKED FACE WITH EXPLODING HEAD;SHOPPING TROLLEY",
  "SIDEWAYS BLACK,WHITE DOWN,LEFT,RIGHT,UP POINTING INDEX;SILHOUETTE OF JAPAN;SINE WAVE",
  "SINGLE LEFT-POINTING,RIGHT-POINTING ANGLE QUOTATION MARK",
  "SIX PETALLED BLACK AND WHITE FLORETTE;SIX POINTED STAR WITH MIDDLE DOT",
  "SIX,TWELVE POINTED BLACK STAR;SIXTEEN POINTED ASTERISK;SKI AND SKI BOOT;SLICE OF PIZZA",
  "SMALL CONTAINS AS MEMBER;SMALL CONTAINS WITH OVERBAR",
  "SMALL CONTAINS WITH VERTICAL BAR AT END OF HORIZONTAL STROKE;SMALL ELEMENT OF",
  "SMALL ELEMENT OF WITH OVERBAR;SMALL ELEMENT OF WITH VERTICAL BAR AT END OF HORIZONTAL STROKE",
  "SMALL ROMAN NUMERAL EIGHT,ELEVEN,FIFTY,FIVE,FOUR,NINE,ONE,SEVEN,SIX,TEN,THREE,TWELVE,TWO",
  "SMALL ROMAN NUMERAL FIVE,ONE HUNDRED;SMALL ROMAN NUMERAL ONE THOUSAND",
  "SMILING CAT FACE WITH HEART-SHAPED EYES;SMILING CAT FACE WITH OPEN MOUTH",
  "SMILING FACE WITH HEART-SHAPED EYES;SMILING FACE WITH OPEN MOUTH",
  "SMILING FACE WITH OPEN MOUTH AND COLD SWEAT",
  "SMILING FACE WITH OPEN MOUTH AND SMILING,TIGHTLY-CLOSED EYES",
  "SMILING FACE WITH SMILING EYES AND HAND COVERING MOUTH",
  "SMILING FACE WITH SMILING EYES AND THREE HEARTS;SMILING FACE WITH TEAR;SOFT SHELL FLOPPY DISK",
  "SOON WITH RIGHTWARDS ARROW ABOVE;SOUND RECORDING COPYRIGHT;SOUTH EAST ARROW TO CORNER",
  "SPEAKER WITH ONE SOUND WAVE;SPEAKER WITH THREE SOUND WAVES;SPLASHING SWEAT SYMBOL",
  "SPOOL OF THREAD;SQUARE CAP,CUP,ROOT;SQUARE FOUR CORNERS;SQUARE IMAGE,ORIGINAL OF",
  "SQUARE IMAGE,ORIGINAL OF OR EQUAL TO;SQUARE IMAGE,ORIGINAL OF OR NOT EQUAL TO",
  "SQUARE WITH DIAGONAL,ORTHOGONAL CROSSHATCH FILL;SQUARE WITH HORIZONTAL FILL",
  "SQUARE WITH LOWER RIGHT DIAGONAL HALF BLACK;SQUARE WITH UPPER LEFT DIAGONAL HALF BLACK",
  "SQUARE WITH UPPER LEFT TO LOWER RIGHT FILL;SQUARE WITH UPPER RIGHT TO LOWER LEFT FILL",
  "SQUARED DOT OPERATOR;SQUARED KEY,SALTIRE,TIMES;SQUAT BLACK RIGHTWARDS ARROW",
  "STAFF OF AESCULAPIUS,HERMES;START OF TEXT;STOCK CHART;STRESS OUTLINED WHITE STAR",
  "SUBSET,SUPERSET OF OR EQUAL TO;SUBSET,SUPERSET OF WITH NOT EQUAL TO;SUNSET OVER BUILDINGS",
  "SYMBOL FOR MARKS CHAPTER;SYMBOL FOR SAMARITAN SOURCE;TAPE CARTRIDGE,DRIVE",
  "TELEPHONE LOCATION SIGN;TELEPHONE ON TOP OF MODEM;TELEPHONE RECEIVER WITH PAGE",
  "TENNIS RACQUET AND BALL;THERE DOES NOT EXIST;THERE EXISTS;THREE LINES CONVERGING LEFT,RIGHT",
  "THREE NETWORKED COMPUTERS;THREE RAYS ABOVE,BELOW,LEFT,RIGHT;THREE RIGHTWARDS ARROWS",
  "THREE,TWO SPEECH BUBBLES;THREE-D BOTTOM-LIGHTED,TOP-LIGHTED RIGHTWARDS ARROWHEAD",
  "THUMBS DOWN,UP SIGN;TIGHT TRIFOLIATE SNOWFLAKE;TIRONIAN SIGN ET;TOP WITH UPWARDS ARROW ABOVE",
  "TRIANGLE WITH ROUNDED CORNERS;TRIGRAM FOR EARTH,FIRE,HEAVEN,LAKE,MOUNTAIN,THUNDER,WATER,WIND",
  "TRIPLE VERTICAL BAR RIGHT TURNSTILE;TURKISH LIRA SIGN;TURNED AMPERSAND",
  "TURNED BLACK,WHITE SHOGI PIECE;TURNED CAPITAL,SMALL F;TURNED DIGIT THREE,TWO",
  "TURNED GREEK SMALL LETTER IOTA;TURNED OK HAND SIGN;TURNED SANS-SERIF CAPITAL G,L,Y",
  "TWO ASTERISKS ALIGNED VERTICALLY;UNIVERSAL RECYCLING SYMBOL;UNMARRIED PARTNERSHIP SYMBOL",
  "UP DOWN ARROW;UP DOWN ARROW WITH BASE;UP DOWN DOUBLE,WHITE ARROW",
  "UP-POINTING MILITARY,SMALL AIRPLANE;UP-POINTING TRIANGLE WITH LEFT,RIGHT HALF BLACK",
  "UPPER RIGHT PENCIL;UPWARDS ARROW LEFTWARDS OF DOWNWARDS ARROW;UPWARDS WHITE ARROW FROM BAR",
  "UPWARDS WHITE ARROW ON PEDESTAL;UPWARDS WHITE ARROW ON PEDESTAL WITH HORIZONTAL,VERTICAL BAR",
  "UPWARDS WHITE DOUBLE ARROW;UPWARDS WHITE DOUBLE ARROW ON PEDESTAL;VARIATION SELECTOR-16",
  "VERTICAL ELLIPSIS;VERTICAL FOUR DOTS;VERY MUCH GREATER-THAN,LESS-THAN",
  "VULGAR FRACTION FIVE SIXTHS;VULGAR FRACTION FIVE,SEVEN,THREE EIGHTHS",
  "VULGAR FRACTION FOUR,THREE,TWO FIFTHS",
  "VULGAR FRACTION ONE EIGHTH,FIFTH,HALF,NINTH,QUARTER,SEVENTH,SIXTH,TENTH,THIRD",
  "VULGAR FRACTION THREE QUARTERS;VULGAR FRACTION TWO,ZERO THIRDS",
  "WANING,WAXING CRESCENT,GIBBOUS MOON SYMBOL;WATER POLO;WHITE CIRCLE WITH DOT RIGHT",
  "WHITE CIRCLE WITH TWO DOTS;WHITE CIRCLE,SQUARE WITH LOWER,UPPER LEFT,RIGHT QUADRANT",
  "WHITE DIAMOND CONTAINING BLACK SMALL DIAMOND;WHITE DIAMOND IN SQUARE",
  "WHITE DOWN POINTING LEFT HAND INDEX;WHITE DOWN,UP POINTING INDEX",
  "WHITE FLAG WITH HORIZONTAL MIDDLE BLACK STRIPE;WHITE LATIN CROSS",
  "WHITE SQUARE CONTAINING BLACK SMALL SQUARE;WHITE SQUARE WITH ROUNDED CORNERS",
  "WHITE SQUARE WITH VERTICAL BISECTING LINE;WHITE SUN;WHITE UP-POINTING TRIANGLE WITH DOT",
  "WIRED KEYBOARD;WOMAN WITH BUNNY EARS;WOMANS BOOTS,SANDAL;WRAPPED PRESENT;WREATH PRODUCT",
  "Z NOTATION BAG MEMBERSHIP;ZERO WIDTH JOINER,NON-JOINER,SPACE;ZERO WIDTH NO-BREAK SPACE",
  "REGIONAL INDICATOR SYMBOL LETTER A,B,C,D,E,F,G,H,I,J,K,L,M,N,O,P,Q,R,S,T,U,V,W,X,Y,Z"]

/-- Han characters, as increasing ranges of code points. -/
def hanRanges : List (Nat × Nat) :=
  [(0x3400, 0x4DBF), (0x4E00, 0x9FFF), (0x20000, 0x2A6DF), (0x2A700, 0x2B738), (0x2B740, 0x2B81D),
    (0x2B820, 0x2CEA1), (0x2CEB0, 0x2EBE0), (0x30000, 0x3134A)]

/-- The value of a hexadecimal digit, where letters are capitals. -/
def capitalHexDigit? (c : Char) : Option Nat :=
  if c.isDigit then some (c.toNat - '0'.toNat)
  else if 'A' ≤ c && c ≤ 'F' then some (c.toNat - 'A'.toNat + 10)
  else none

/-- Whether a text is the number of a Han character. -/
def isHanNumber (t : Text) : Bool :=
  match if t.length = 4 || t.length = 5 then t.mapM capitalHexDigit? else none with
  | some digits =>
    let n := digits.foldl (fun n d => n * 16 + d) 0
    hanRanges.any fun r => r.1 ≤ n && n ≤ r.2
  | none => false

/-- Whether words are made of what is listed: one word out of each group. -/
def fits : (groups words : List Text) → Bool
  | [], [] => true
  | group :: groups, word :: words => (group.splitOn ',').contains word && fits groups words
  | _, _ => false

/-- Whether a text is the name of a character. Small letters count as capitals, but not in the
names of Han characters. -/
def isCharacterName (t : Text) : Bool :=
  match "CJK UNIFIED IDEOGRAPH-".toList.isPrefixOf? t with
  | some number => isHanNumber number
  | none =>
    let words := (t.map Char.toUpper).splitOn ' '
    (listed nameLines).any (fun name => fits (name.splitOn ' ') words) ||
      starredNames.any fun name => (name.map Char.toUpper).splitOn '_' == words

end SymbolAtlas.Report
