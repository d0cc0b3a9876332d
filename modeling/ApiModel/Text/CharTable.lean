namespace ApiModel.Text

structure Run where
  first : Nat
  last : Nat
  step : Nat
  deriving DecidableEq, Repr

namespace Run

def contains (r : Run) (c : Nat) : Bool :=
  r.first ≤ c && c ≤ r.last && (c - r.first) % r.step == 0

def ofFlat : List Nat → List Run
  | first :: last :: step :: rest => ⟨first, last, step⟩ :: ofFlat rest
  | _ => []

/-- Membership in an ascending table: a run that starts above `c` ends the search. -/
def holds : List Run → Nat → Bool
  | [], _ => false
  | r :: rest, c => if c < r.first then false else r.contains c || holds rest c

end Run

structure Shift where
  run : Run
  distance : Int
  deriving DecidableEq, Repr

namespace Shift

def ofFlat : List Int → List Shift
  | first :: last :: step :: distance :: rest =>
      ⟨⟨first.toNat, last.toNat, step.toNat⟩, distance⟩ :: ofFlat rest
  | _ => []

def apply : List Shift → Nat → Nat
  | [], c => c
  | s :: rest, c =>
      if c < s.run.first then c
      else if s.run.contains c then (c + s.distance).toNat
      else apply rest c

end Shift

def alphanumericRuns : List Run := Run.ofFlat [
  48, 57, 1, 65, 90, 1, 97, 122, 1, 170, 170, 1, 178, 179, 1, 181, 181, 1, 185, 186, 1, 188, 190,
  1, 192, 214, 1, 216, 246, 1, 248, 705, 1, 710, 721, 1, 736, 740, 1, 748, 750, 2, 837, 837, 1,
  867, 884, 1, 886, 887, 1, 890, 893, 1, 895, 895, 1, 902, 904, 2, 905, 906, 1, 908, 910, 2, 911,
  929, 1, 931, 1013, 1, 1015, 1153, 1, 1162, 1327, 1, 1329, 1366, 1, 1369, 1369, 1, 1376, 1416, 1,
  1456, 1469, 1, 1471, 1473, 2, 1474, 1476, 2, 1477, 1479, 2, 1488, 1514, 1, 1519, 1522, 1, 1552,
  1562, 1, 1568, 1623, 1, 1625, 1641, 1, 1646, 1747, 1, 1749, 1756, 1, 1761, 1768, 1, 1773, 1788,
  1, 1791, 1791, 1, 1808, 1855, 1, 1869, 1969, 1, 1984, 2026, 1, 2036, 2037, 1, 2042, 2042, 1,
  2048, 2071, 1, 2074, 2092, 1, 2112, 2136, 1, 2144, 2154, 1, 2160, 2183, 1, 2185, 2191, 1, 2199,
  2199, 1, 2208, 2249, 1, 2260, 2271, 1, 2275, 2281, 1, 2288, 2363, 1, 2365, 2380, 1, 2382, 2384,
  1, 2389, 2403, 1, 2406, 2415, 1, 2417, 2435, 1, 2437, 2444, 1, 2447, 2448, 1, 2451, 2472, 1,
  2474, 2480, 1, 2482, 2482, 1, 2486, 2489, 1, 2493, 2500, 1, 2503, 2504, 1, 2507, 2508, 1, 2510,
  2510, 1, 2519, 2519, 1, 2524, 2525, 1, 2527, 2531, 1, 2534, 2545, 1, 2548, 2553, 1, 2556, 2556,
  1, 2561, 2563, 1, 2565, 2570, 1, 2575, 2576, 1, 2579, 2600, 1, 2602, 2608, 1, 2610, 2611, 1,
  2613, 2614, 1, 2616, 2617, 1, 2622, 2626, 1, 2631, 2632, 1, 2635, 2636, 1, 2641, 2641, 1, 2649,
  2652, 1, 2654, 2654, 1, 2662, 2677, 1, 2689, 2691, 1, 2693, 2701, 1, 2703, 2705, 1, 2707, 2728,
  1, 2730, 2736, 1, 2738, 2739, 1, 2741, 2745, 1, 2749, 2757, 1, 2759, 2761, 1, 2763, 2764, 1,
  2768, 2768, 1, 2784, 2787, 1, 2790, 2799, 1, 2809, 2812, 1, 2817, 2819, 1, 2821, 2828, 1, 2831,
  2832, 1, 2835, 2856, 1, 2858, 2864, 1, 2866, 2867, 1, 2869, 2873, 1, 2877, 2884, 1, 2887, 2888,
  1, 2891, 2892, 1, 2902, 2903, 1, 2908, 2909, 1, 2911, 2915, 1, 2918, 2927, 1, 2929, 2935, 1,
  2946, 2947, 1, 2949, 2954, 1, 2958, 2960, 1, 2962, 2965, 1, 2969, 2970, 1, 2972, 2974, 2, 2975,
  2975, 1, 2979, 2980, 1, 2984, 2986, 1, 2990, 3001, 1, 3006, 3010, 1, 3014, 3016, 1, 3018, 3020,
  1, 3024, 3024, 1, 3031, 3031, 1, 3046, 3058, 1, 3072, 3084, 1, 3086, 3088, 1, 3090, 3112, 1,
  3114, 3129, 1, 3133, 3140, 1, 3142, 3144, 1, 3146, 3148, 1, 3157, 3158, 1, 3160, 3162, 1, 3164,
  3165, 1, 3168, 3171, 1, 3174, 3183, 1, 3192, 3198, 1, 3200, 3203, 1, 3205, 3212, 1, 3214, 3216,
  1, 3218, 3240, 1, 3242, 3251, 1, 3253, 3257, 1, 3261, 3268, 1, 3270, 3272, 1, 3274, 3276, 1,
  3285, 3286, 1, 3292, 3294, 1, 3296, 3299, 1, 3302, 3311, 1, 3313, 3315, 1, 3328, 3340, 1, 3342,
  3344, 1, 3346, 3386, 1, 3389, 3396, 1, 3398, 3400, 1, 3402, 3404, 1, 3406, 3406, 1, 3412, 3427,
  1, 3430, 3448, 1, 3450, 3455, 1, 3457, 3459, 1, 3461, 3478, 1, 3482, 3505, 1, 3507, 3515, 1,
  3517, 3517, 1, 3520, 3526, 1, 3535, 3540, 1, 3542, 3544, 2, 3545, 3551, 1, 3558, 3567, 1, 3570,
  3571, 1, 3585, 3642, 1, 3648, 3654, 1, 3661, 3661, 1, 3664, 3673, 1, 3713, 3714, 1, 3716, 3718,
  2, 3719, 3722, 1, 3724, 3747, 1, 3749, 3751, 2, 3752, 3769, 1, 3771, 3773, 1, 3776, 3780, 1,
  3782, 3782, 1, 3789, 3789, 1, 3792, 3801, 1, 3804, 3807, 1, 3840, 3840, 1, 3872, 3891, 1, 3904,
  3911, 1, 3913, 3948, 1, 3953, 3971, 1, 3976, 3991, 1, 3993, 4028, 1, 4096, 4150, 1, 4152, 4152,
  1, 4155, 4169, 1, 4176, 4253, 1, 4256, 4293, 1, 4295, 4295, 1, 4301, 4301, 1, 4304, 4346, 1,
  4348, 4680, 1, 4682, 4685, 1, 4688, 4694, 1, 4696, 4698, 2, 4699, 4701, 1, 4704, 4744, 1, 4746,
  4749, 1, 4752, 4784, 1, 4786, 4789, 1, 4792, 4798, 1, 4800, 4802, 2, 4803, 4805, 1, 4808, 4822,
  1, 4824, 4880, 1, 4882, 4885, 1, 4888, 4954, 1, 4969, 4988, 1, 4992, 5007, 1, 5024, 5109, 1,
  5112, 5117, 1, 5121, 5740, 1, 5743, 5759, 1, 5761, 5786, 1, 5792, 5866, 1, 5870, 5880, 1, 5888,
  5907, 1, 5919, 5939, 1, 5952, 5971, 1, 5984, 5996, 1, 5998, 6000, 1, 6002, 6003, 1, 6016, 6067,
  1, 6070, 6088, 1, 6103, 6103, 1, 6108, 6108, 1, 6112, 6121, 1, 6128, 6137, 1, 6160, 6169, 1,
  6176, 6264, 1, 6272, 6314, 1, 6320, 6389, 1, 6400, 6430, 1, 6432, 6443, 1, 6448, 6456, 1, 6470,
  6509, 1, 6512, 6516, 1, 6528, 6571, 1, 6576, 6601, 1, 6608, 6618, 1, 6656, 6683, 1, 6688, 6750,
  1, 6753, 6772, 1, 6784, 6793, 1, 6800, 6809, 1, 6823, 6823, 1, 6847, 6848, 1, 6860, 6862, 1,
  6912, 6963, 1, 6965, 6979, 1, 6981, 6988, 1, 6992, 7001, 1, 7040, 7081, 1, 7084, 7141, 1, 7143,
  7153, 1, 7168, 7222, 1, 7232, 7241, 1, 7245, 7293, 1, 7296, 7306, 1, 7312, 7354, 1, 7357, 7359,
  1, 7401, 7404, 1, 7406, 7411, 1, 7413, 7414, 1, 7418, 7418, 1, 7424, 7615, 1, 7635, 7668, 1,
  7680, 7957, 1, 7960, 7965, 1, 7968, 8005, 1, 8008, 8013, 1, 8016, 8023, 1, 8025, 8031, 2, 8032,
  8061, 1, 8064, 8116, 1, 8118, 8124, 1, 8126, 8126, 1, 8130, 8132, 1, 8134, 8140, 1, 8144, 8147,
  1, 8150, 8155, 1, 8160, 8172, 1, 8178, 8180, 1, 8182, 8188, 1, 8304, 8305, 1, 8308, 8313, 1,
  8319, 8329, 1, 8336, 8348, 1, 8450, 8450, 1, 8455, 8455, 1, 8458, 8467, 1, 8469, 8469, 1, 8473,
  8477, 1, 8484, 8490, 2, 8491, 8493, 1, 8495, 8505, 1, 8508, 8511, 1, 8517, 8521, 1, 8526, 8528,
  2, 8529, 8585, 1, 9312, 9371, 1, 9398, 9471, 1, 10102, 10131, 1, 11264, 11492, 1, 11499, 11502,
  1, 11506, 11507, 1, 11517, 11517, 1, 11520, 11557, 1, 11559, 11559, 1, 11565, 11565, 1, 11568,
  11623, 1, 11631, 11631, 1, 11648, 11670, 1, 11680, 11686, 1, 11688, 11694, 1, 11696, 11702, 1,
  11704, 11710, 1, 11712, 11718, 1, 11720, 11726, 1, 11728, 11734, 1, 11736, 11742, 1, 11744,
  11775, 1, 11823, 11823, 1, 12293, 12295, 1, 12321, 12329, 1, 12337, 12341, 1, 12344, 12348, 1,
  12353, 12438, 1, 12445, 12447, 1, 12449, 12538, 1, 12540, 12543, 1, 12549, 12591, 1, 12593,
  12686, 1, 12690, 12693, 1, 12704, 12735, 1, 12784, 12799, 1, 12832, 12841, 1, 12872, 12879, 1,
  12881, 12895, 1, 12928, 12937, 1, 12977, 12991, 1, 13312, 19903, 1, 19968, 42124, 1, 42192,
  42237, 1, 42240, 42508, 1, 42512, 42539, 1, 42560, 42606, 1, 42612, 42619, 1, 42623, 42735, 1,
  42775, 42783, 1, 42786, 42888, 1, 42891, 42972, 1, 42993, 43013, 1, 43015, 43047, 1, 43056,
  43061, 1, 43072, 43123, 1, 43136, 43203, 1, 43205, 43205, 1, 43216, 43225, 1, 43250, 43255, 1,
  43259, 43261, 2, 43262, 43306, 1, 43312, 43346, 1, 43360, 43388, 1, 43392, 43442, 1, 43444,
  43455, 1, 43471, 43481, 1, 43488, 43518, 1, 43520, 43574, 1, 43584, 43597, 1, 43600, 43609, 1,
  43616, 43638, 1, 43642, 43710, 1, 43712, 43714, 2, 43739, 43741, 1, 43744, 43759, 1, 43762,
  43765, 1, 43777, 43782, 1, 43785, 43790, 1, 43793, 43798, 1, 43808, 43814, 1, 43816, 43822, 1,
  43824, 43866, 1, 43868, 43881, 1, 43888, 44010, 1, 44016, 44025, 1, 44032, 55203, 1, 55216,
  55238, 1, 55243, 55291, 1, 63744, 64109, 1, 64112, 64217, 1, 64256, 64262, 1, 64275, 64279, 1,
  64285, 64296, 1, 64298, 64310, 1, 64312, 64316, 1, 64318, 64320, 2, 64321, 64323, 2, 64324,
  64326, 2, 64327, 64433, 1, 64467, 64829, 1, 64848, 64911, 1, 64914, 64967, 1, 65008, 65019, 1,
  65136, 65140, 1, 65142, 65276, 1, 65296, 65305, 1, 65313, 65338, 1, 65345, 65370, 1, 65382,
  65470, 1, 65474, 65479, 1, 65482, 65487, 1, 65490, 65495, 1, 65498, 65500, 1, 65536, 65547, 1,
  65549, 65574, 1, 65576, 65594, 1, 65596, 65597, 1, 65599, 65613, 1, 65616, 65629, 1, 65664,
  65786, 1, 65799, 65843, 1, 65856, 65912, 1, 65930, 65931, 1, 66176, 66204, 1, 66208, 66256, 1,
  66273, 66299, 1, 66304, 66339, 1, 66349, 66378, 1, 66384, 66426, 1, 66432, 66461, 1, 66464,
  66499, 1, 66504, 66511, 1, 66513, 66517, 1, 66560, 66717, 1, 66720, 66729, 1, 66736, 66771, 1,
  66776, 66811, 1, 66816, 66855, 1, 66864, 66915, 1, 66928, 66938, 1, 66940, 66954, 1, 66956,
  66962, 1, 66964, 66965, 1, 66967, 66977, 1, 66979, 66993, 1, 66995, 67001, 1, 67003, 67004, 1,
  67008, 67059, 1, 67072, 67382, 1, 67392, 67413, 1, 67424, 67431, 1, 67456, 67461, 1, 67463,
  67504, 1, 67506, 67514, 1, 67584, 67589, 1, 67592, 67594, 2, 67595, 67637, 1, 67639, 67640, 1,
  67644, 67644, 1, 67647, 67669, 1, 67672, 67702, 1, 67705, 67742, 1, 67751, 67759, 1, 67808,
  67826, 1, 67828, 67829, 1, 67835, 67867, 1, 67872, 67897, 1, 67904, 67929, 1, 67968, 68023, 1,
  68028, 68047, 1, 68050, 68099, 1, 68101, 68102, 1, 68108, 68115, 1, 68117, 68119, 1, 68121,
  68149, 1, 68160, 68168, 1, 68192, 68222, 1, 68224, 68255, 1, 68288, 68295, 1, 68297, 68324, 1,
  68331, 68335, 1, 68352, 68405, 1, 68416, 68437, 1, 68440, 68466, 1, 68472, 68497, 1, 68521,
  68527, 1, 68608, 68680, 1, 68736, 68786, 1, 68800, 68850, 1, 68858, 68903, 1, 68912, 68921, 1,
  68928, 68965, 1, 68969, 68969, 1, 68975, 68997, 1, 69216, 69246, 1, 69248, 69289, 1, 69291,
  69292, 1, 69296, 69297, 1, 69314, 69319, 1, 69370, 69372, 1, 69376, 69415, 1, 69424, 69445, 1,
  69457, 69460, 1, 69488, 69505, 1, 69552, 69579, 1, 69600, 69622, 1, 69632, 69701, 1, 69714,
  69743, 1, 69745, 69749, 1, 69760, 69816, 1, 69826, 69826, 1, 69840, 69864, 1, 69872, 69881, 1,
  69888, 69938, 1, 69942, 69951, 1, 69956, 69959, 1, 69968, 70002, 1, 70006, 70006, 1, 70016,
  70079, 1, 70081, 70084, 1, 70094, 70106, 1, 70108, 70108, 1, 70113, 70132, 1, 70144, 70161, 1,
  70163, 70196, 1, 70199, 70199, 1, 70206, 70209, 1, 70272, 70278, 1, 70280, 70282, 2, 70283,
  70285, 1, 70287, 70301, 1, 70303, 70312, 1, 70320, 70376, 1, 70384, 70393, 1, 70400, 70403, 1,
  70405, 70412, 1, 70415, 70416, 1, 70419, 70440, 1, 70442, 70448, 1, 70450, 70451, 1, 70453,
  70457, 1, 70461, 70468, 1, 70471, 70472, 1, 70475, 70476, 1, 70480, 70480, 1, 70487, 70487, 1,
  70493, 70499, 1, 70528, 70537, 1, 70539, 70539, 1, 70542, 70544, 2, 70545, 70581, 1, 70583,
  70592, 1, 70594, 70594, 1, 70597, 70599, 2, 70600, 70602, 1, 70604, 70605, 1, 70609, 70611, 2,
  70656, 70721, 1, 70723, 70725, 1, 70727, 70730, 1, 70736, 70745, 1, 70751, 70753, 1, 70784,
  70849, 1, 70852, 70853, 1, 70855, 70855, 1, 70864, 70873, 1, 71040, 71093, 1, 71096, 71102, 1,
  71128, 71133, 1, 71168, 71230, 1, 71232, 71232, 1, 71236, 71236, 1, 71248, 71257, 1, 71296,
  71349, 1, 71352, 71352, 1, 71360, 71369, 1, 71376, 71395, 1, 71424, 71450, 1, 71453, 71466, 1,
  71472, 71483, 1, 71488, 71494, 1, 71680, 71736, 1, 71840, 71922, 1, 71935, 71942, 1, 71945,
  71945, 1, 71948, 71955, 1, 71957, 71958, 1, 71960, 71989, 1, 71991, 71992, 1, 71995, 71996, 1,
  71999, 72002, 1, 72016, 72025, 1, 72096, 72103, 1, 72106, 72151, 1, 72154, 72159, 1, 72161,
  72163, 2, 72164, 72164, 1, 72192, 72242, 1, 72245, 72254, 1, 72272, 72343, 1, 72349, 72349, 1,
  72368, 72440, 1, 72544, 72551, 1, 72640, 72672, 1, 72688, 72697, 1, 72704, 72712, 1, 72714,
  72758, 1, 72760, 72766, 1, 72768, 72768, 1, 72784, 72812, 1, 72818, 72847, 1, 72850, 72871, 1,
  72873, 72886, 1, 72960, 72966, 1, 72968, 72969, 1, 72971, 73014, 1, 73018, 73020, 2, 73021,
  73023, 2, 73024, 73025, 1, 73027, 73027, 1, 73030, 73031, 1, 73040, 73049, 1, 73056, 73061, 1,
  73063, 73064, 1, 73066, 73102, 1, 73104, 73105, 1, 73107, 73110, 1, 73112, 73112, 1, 73120,
  73129, 1, 73136, 73179, 1, 73184, 73193, 1, 73440, 73462, 1, 73472, 73488, 1, 73490, 73530, 1,
  73534, 73536, 1, 73552, 73561, 1, 73648, 73648, 1, 73664, 73684, 1, 73728, 74649, 1, 74752,
  74862, 1, 74880, 75075, 1, 77712, 77808, 1, 77824, 78895, 1, 78913, 78918, 1, 78944, 82938, 1,
  82944, 83526, 1, 90368, 90414, 1, 90416, 90425, 1, 92160, 92728, 1, 92736, 92766, 1, 92768,
  92777, 1, 92784, 92862, 1, 92864, 92873, 1, 92880, 92909, 1, 92928, 92975, 1, 92992, 92995, 1,
  93008, 93017, 1, 93019, 93025, 1, 93027, 93047, 1, 93053, 93071, 1, 93504, 93548, 1, 93552,
  93561, 1, 93760, 93846, 1, 93856, 93880, 1, 93883, 93907, 1, 93952, 94026, 1, 94031, 94087, 1,
  94095, 94111, 1, 94176, 94177, 1, 94179, 94179, 1, 94192, 94198, 1, 94208, 101589, 1, 101631,
  101662, 1, 101760, 101874, 1, 110576, 110579, 1, 110581, 110587, 1, 110589, 110590, 1, 110592,
  110882, 1, 110898, 110898, 1, 110928, 110930, 1, 110933, 110933, 1, 110948, 110951, 1, 110960,
  111355, 1, 113664, 113770, 1, 113776, 113788, 1, 113792, 113800, 1, 113808, 113817, 1, 113822,
  113822, 1, 118000, 118009, 1, 119488, 119507, 1, 119520, 119539, 1, 119648, 119672, 1, 119808,
  119892, 1, 119894, 119964, 1, 119966, 119967, 1, 119970, 119970, 1, 119973, 119974, 1, 119977,
  119980, 1, 119982, 119993, 1, 119995, 119997, 2, 119998, 120003, 1, 120005, 120069, 1, 120071,
  120074, 1, 120077, 120084, 1, 120086, 120092, 1, 120094, 120121, 1, 120123, 120126, 1, 120128,
  120132, 1, 120134, 120134, 1, 120138, 120144, 1, 120146, 120485, 1, 120488, 120512, 1, 120514,
  120538, 1, 120540, 120570, 1, 120572, 120596, 1, 120598, 120628, 1, 120630, 120654, 1, 120656,
  120686, 1, 120688, 120712, 1, 120714, 120744, 1, 120746, 120770, 1, 120772, 120779, 1, 120782,
  120831, 1, 122624, 122654, 1, 122661, 122666, 1, 122880, 122886, 1, 122888, 122904, 1, 122907,
  122913, 1, 122915, 122916, 1, 122918, 122922, 1, 122928, 122989, 1, 123023, 123023, 1, 123136,
  123180, 1, 123191, 123197, 1, 123200, 123209, 1, 123214, 123214, 1, 123536, 123565, 1, 123584,
  123627, 1, 123632, 123641, 1, 124112, 124139, 1, 124144, 124153, 1, 124368, 124397, 1, 124400,
  124410, 1, 124608, 124638, 1, 124640, 124661, 1, 124670, 124671, 1, 124896, 124902, 1, 124904,
  124907, 1, 124909, 124910, 1, 124912, 124926, 1, 124928, 125124, 1, 125127, 125135, 1, 125184,
  125251, 1, 125255, 125255, 1, 125259, 125259, 1, 125264, 125273, 1, 126065, 126123, 1, 126125,
  126127, 1, 126129, 126132, 1, 126209, 126253, 1, 126255, 126269, 1, 126464, 126467, 1, 126469,
  126495, 1, 126497, 126498, 1, 126500, 126500, 1, 126503, 126505, 2, 126506, 126514, 1, 126516,
  126519, 1, 126521, 126523, 2, 126530, 126530, 1, 126535, 126541, 2, 126542, 126543, 1, 126545,
  126546, 1, 126548, 126548, 1, 126551, 126561, 2, 126562, 126564, 2, 126567, 126570, 1, 126572,
  126578, 1, 126580, 126583, 1, 126585, 126588, 1, 126590, 126592, 2, 126593, 126601, 1, 126603,
  126619, 1, 126625, 126627, 1, 126629, 126633, 1, 126635, 126651, 1, 127232, 127244, 1, 127280,
  127305, 1, 127312, 127337, 1, 127344, 127369, 1, 130032, 130041, 1, 131072, 173791, 1, 173824,
  178205, 1, 178208, 183981, 1, 183984, 191456, 1, 191472, 192093, 1, 194560, 195101, 1, 196608,
  201546, 1, 201552, 210041, 1]

def lowercaseRuns : List Run := Run.ofFlat [
  97, 122, 1, 170, 170, 1, 181, 181, 1, 186, 186, 1, 223, 246, 1, 248, 255, 1, 257, 311, 2, 312,
  328, 2, 329, 375, 2, 378, 382, 2, 383, 384, 1, 387, 389, 2, 392, 392, 1, 396, 397, 1, 402, 402,
  1, 405, 405, 1, 409, 411, 1, 414, 414, 1, 417, 421, 2, 424, 426, 2, 427, 429, 2, 432, 432, 1,
  436, 438, 2, 441, 442, 1, 445, 447, 1, 454, 454, 1, 457, 457, 1, 460, 476, 2, 477, 495, 2, 496,
  496, 1, 499, 501, 2, 505, 563, 2, 564, 569, 1, 572, 572, 1, 575, 576, 1, 578, 578, 1, 583, 591,
  2, 592, 659, 1, 662, 696, 1, 704, 705, 1, 736, 740, 1, 837, 837, 1, 881, 883, 2, 887, 887, 1,
  890, 893, 1, 912, 912, 1, 940, 974, 1, 976, 977, 1, 981, 983, 1, 985, 1007, 2, 1008, 1011, 1,
  1013, 1013, 1, 1016, 1016, 1, 1019, 1020, 1, 1072, 1119, 1, 1121, 1153, 2, 1163, 1215, 2, 1218,
  1230, 2, 1231, 1327, 2, 1376, 1416, 1, 4304, 4346, 1, 4348, 4351, 1, 5112, 5117, 1, 7296, 7304,
  1, 7306, 7306, 1, 7424, 7615, 1, 7681, 7829, 2, 7830, 7837, 1, 7839, 7935, 2, 7936, 7943, 1,
  7952, 7957, 1, 7968, 7975, 1, 7984, 7991, 1, 8000, 8005, 1, 8016, 8023, 1, 8032, 8039, 1, 8048,
  8061, 1, 8064, 8071, 1, 8080, 8087, 1, 8096, 8103, 1, 8112, 8116, 1, 8118, 8119, 1, 8126, 8126,
  1, 8130, 8132, 1, 8134, 8135, 1, 8144, 8147, 1, 8150, 8151, 1, 8160, 8167, 1, 8178, 8180, 1,
  8182, 8183, 1, 8305, 8305, 1, 8319, 8319, 1, 8336, 8348, 1, 8458, 8458, 1, 8462, 8463, 1, 8467,
  8467, 1, 8495, 8495, 1, 8500, 8500, 1, 8505, 8505, 1, 8508, 8509, 1, 8518, 8521, 1, 8526, 8526,
  1, 8560, 8575, 1, 8580, 8580, 1, 9424, 9449, 1, 11312, 11359, 1, 11361, 11361, 1, 11365, 11366,
  1, 11368, 11372, 2, 11377, 11379, 2, 11380, 11382, 2, 11383, 11389, 1, 11393, 11491, 2, 11492,
  11492, 1, 11500, 11502, 2, 11507, 11507, 1, 11520, 11557, 1, 11559, 11559, 1, 11565, 11565, 1,
  42561, 42605, 2, 42625, 42651, 2, 42652, 42653, 1, 42787, 42799, 2, 42800, 42801, 1, 42803,
  42863, 2, 42864, 42872, 1, 42874, 42876, 2, 42879, 42887, 2, 42892, 42894, 2, 42897, 42899, 2,
  42900, 42901, 1, 42903, 42921, 2, 42927, 42927, 1, 42933, 42947, 2, 42952, 42954, 2, 42957,
  42971, 2, 42993, 42996, 1, 42998, 43000, 2, 43001, 43002, 1, 43824, 43866, 1, 43868, 43881, 1,
  43888, 43967, 1, 64256, 64262, 1, 64275, 64279, 1, 65345, 65370, 1, 66600, 66639, 1, 66776,
  66811, 1, 66967, 66977, 1, 66979, 66993, 1, 66995, 67001, 1, 67003, 67004, 1, 67456, 67456, 1,
  67459, 67461, 1, 67463, 67504, 1, 67506, 67514, 1, 68800, 68850, 1, 68976, 68997, 1, 71872,
  71903, 1, 93792, 93823, 1, 93883, 93907, 1, 119834, 119859, 1, 119886, 119892, 1, 119894,
  119911, 1, 119938, 119963, 1, 119990, 119993, 1, 119995, 119997, 2, 119998, 120003, 1, 120005,
  120015, 1, 120042, 120067, 1, 120094, 120119, 1, 120146, 120171, 1, 120198, 120223, 1, 120250,
  120275, 1, 120302, 120327, 1, 120354, 120379, 1, 120406, 120431, 1, 120458, 120485, 1, 120514,
  120538, 1, 120540, 120545, 1, 120572, 120596, 1, 120598, 120603, 1, 120630, 120654, 1, 120656,
  120661, 1, 120688, 120712, 1, 120714, 120719, 1, 120746, 120770, 1, 120772, 120777, 1, 120779,
  120779, 1, 122624, 122633, 1, 122635, 122654, 1, 122661, 122666, 1, 122928, 122989, 1, 125218,
  125251, 1]

def uppercaseRuns : List Run := Run.ofFlat [
  65, 90, 1, 192, 214, 1, 216, 222, 1, 256, 310, 2, 313, 327, 2, 330, 376, 2, 377, 381, 2, 385,
  386, 1, 388, 390, 2, 391, 393, 2, 394, 395, 1, 398, 401, 1, 403, 404, 1, 406, 408, 1, 412, 413,
  1, 415, 416, 1, 418, 422, 2, 423, 425, 2, 428, 430, 2, 431, 433, 2, 434, 435, 1, 437, 439, 2,
  440, 440, 1, 444, 444, 1, 452, 452, 1, 455, 455, 1, 458, 458, 1, 461, 475, 2, 478, 494, 2, 497,
  497, 1, 500, 502, 2, 503, 504, 1, 506, 562, 2, 570, 571, 1, 573, 574, 1, 577, 579, 2, 580, 582,
  1, 584, 590, 2, 880, 882, 2, 886, 886, 1, 895, 895, 1, 902, 904, 2, 905, 906, 1, 908, 910, 2,
  911, 913, 2, 914, 929, 1, 931, 939, 1, 975, 975, 1, 978, 980, 1, 984, 1006, 2, 1012, 1012, 1,
  1015, 1017, 2, 1018, 1018, 1, 1021, 1071, 1, 1120, 1152, 2, 1162, 1216, 2, 1217, 1229, 2, 1232,
  1326, 2, 1329, 1366, 1, 4256, 4293, 1, 4295, 4295, 1, 4301, 4301, 1, 5024, 5109, 1, 7305, 7305,
  1, 7312, 7354, 1, 7357, 7359, 1, 7680, 7828, 2, 7838, 7934, 2, 7944, 7951, 1, 7960, 7965, 1,
  7976, 7983, 1, 7992, 7999, 1, 8008, 8013, 1, 8025, 8031, 2, 8040, 8047, 1, 8120, 8123, 1, 8136,
  8139, 1, 8152, 8155, 1, 8168, 8172, 1, 8184, 8187, 1, 8450, 8450, 1, 8455, 8455, 1, 8459, 8461,
  1, 8464, 8466, 1, 8469, 8469, 1, 8473, 8477, 1, 8484, 8490, 2, 8491, 8493, 1, 8496, 8499, 1,
  8510, 8511, 1, 8517, 8517, 1, 8544, 8559, 1, 8579, 8579, 1, 9398, 9423, 1, 11264, 11311, 1,
  11360, 11362, 2, 11363, 11364, 1, 11367, 11373, 2, 11374, 11376, 1, 11378, 11378, 1, 11381,
  11381, 1, 11390, 11392, 1, 11394, 11490, 2, 11499, 11501, 2, 11506, 11506, 1, 42560, 42604, 2,
  42624, 42650, 2, 42786, 42798, 2, 42802, 42862, 2, 42873, 42877, 2, 42878, 42886, 2, 42891,
  42893, 2, 42896, 42898, 2, 42902, 42922, 2, 42923, 42926, 1, 42928, 42932, 1, 42934, 42948, 2,
  42949, 42951, 1, 42953, 42955, 2, 42956, 42972, 2, 42997, 42997, 1, 65313, 65338, 1, 66560,
  66599, 1, 66736, 66771, 1, 66928, 66938, 1, 66940, 66954, 1, 66956, 66962, 1, 66964, 66965, 1,
  68736, 68786, 1, 68944, 68965, 1, 71840, 71871, 1, 93760, 93791, 1, 93856, 93880, 1, 119808,
  119833, 1, 119860, 119885, 1, 119912, 119937, 1, 119964, 119966, 2, 119967, 119967, 1, 119970,
  119970, 1, 119973, 119974, 1, 119977, 119980, 1, 119982, 119989, 1, 120016, 120041, 1, 120068,
  120069, 1, 120071, 120074, 1, 120077, 120084, 1, 120086, 120092, 1, 120120, 120121, 1, 120123,
  120126, 1, 120128, 120132, 1, 120134, 120134, 1, 120138, 120144, 1, 120172, 120197, 1, 120224,
  120249, 1, 120276, 120301, 1, 120328, 120353, 1, 120380, 120405, 1, 120432, 120457, 1, 120488,
  120512, 1, 120546, 120570, 1, 120604, 120628, 1, 120662, 120686, 1, 120720, 120744, 1, 120778,
  120778, 1, 125184, 125217, 1, 127280, 127305, 1, 127312, 127337, 1, 127344, 127369, 1]

def blankRuns : List Run := Run.ofFlat [
  9, 13, 1, 32, 32, 1, 133, 133, 1, 160, 160, 1, 5760, 5760, 1, 8192, 8202, 1, 8232, 8233, 1,
  8239, 8239, 1, 8287, 8287, 1, 12288, 12288, 1]

def extenderRuns : List Run := Run.ofFlat [
  768, 879, 1, 1155, 1161, 1, 1425, 1469, 1, 1471, 1473, 2, 1474, 1476, 2, 1477, 1479, 2, 1552,
  1562, 1, 1611, 1631, 1, 1648, 1648, 1, 1750, 1756, 1, 1759, 1764, 1, 1767, 1768, 1, 1770, 1773,
  1, 1809, 1809, 1, 1840, 1866, 1, 1958, 1968, 1, 2027, 2035, 1, 2045, 2045, 1, 2070, 2073, 1,
  2075, 2083, 1, 2085, 2087, 1, 2089, 2093, 1, 2137, 2139, 1, 2199, 2207, 1, 2250, 2273, 1, 2275,
  2306, 1, 2362, 2364, 2, 2369, 2376, 1, 2381, 2381, 1, 2385, 2391, 1, 2402, 2403, 1, 2433, 2433,
  1, 2492, 2494, 2, 2497, 2500, 1, 2509, 2509, 1, 2519, 2519, 1, 2530, 2531, 1, 2558, 2558, 1,
  2561, 2562, 1, 2620, 2620, 1, 2625, 2626, 1, 2631, 2632, 1, 2635, 2637, 1, 2641, 2641, 1, 2672,
  2673, 1, 2677, 2677, 1, 2689, 2690, 1, 2748, 2748, 1, 2753, 2757, 1, 2759, 2760, 1, 2765, 2765,
  1, 2786, 2787, 1, 2810, 2815, 1, 2817, 2817, 1, 2876, 2878, 2, 2879, 2881, 2, 2882, 2884, 1,
  2893, 2893, 1, 2901, 2903, 1, 2914, 2915, 1, 2946, 2946, 1, 3006, 3008, 2, 3021, 3021, 1, 3031,
  3031, 1, 3072, 3072, 1, 3076, 3076, 1, 3132, 3134, 2, 3135, 3136, 1, 3142, 3144, 1, 3146, 3149,
  1, 3157, 3158, 1, 3170, 3171, 1, 3201, 3201, 1, 3260, 3260, 1, 3263, 3264, 1, 3266, 3266, 1,
  3270, 3272, 1, 3274, 3277, 1, 3285, 3286, 1, 3298, 3299, 1, 3328, 3329, 1, 3387, 3388, 1, 3390,
  3390, 1, 3393, 3396, 1, 3405, 3405, 1, 3415, 3415, 1, 3426, 3427, 1, 3457, 3457, 1, 3530, 3530,
  1, 3535, 3535, 1, 3538, 3540, 1, 3542, 3542, 1, 3551, 3551, 1, 3633, 3633, 1, 3636, 3642, 1,
  3655, 3662, 1, 3761, 3761, 1, 3764, 3772, 1, 3784, 3790, 1, 3864, 3865, 1, 3893, 3897, 2, 3953,
  3966, 1, 3968, 3972, 1, 3974, 3975, 1, 3981, 3991, 1, 3993, 4028, 1, 4038, 4038, 1, 4141, 4144,
  1, 4146, 4151, 1, 4153, 4154, 1, 4157, 4158, 1, 4184, 4185, 1, 4190, 4192, 1, 4209, 4212, 1,
  4226, 4226, 1, 4229, 4230, 1, 4237, 4237, 1, 4253, 4253, 1, 4957, 4959, 1, 5906, 5909, 1, 5938,
  5940, 1, 5970, 5971, 1, 6002, 6003, 1, 6068, 6069, 1, 6071, 6077, 1, 6086, 6086, 1, 6089, 6099,
  1, 6109, 6109, 1, 6155, 6157, 1, 6159, 6159, 1, 6277, 6278, 1, 6313, 6313, 1, 6432, 6434, 1,
  6439, 6440, 1, 6450, 6450, 1, 6457, 6459, 1, 6679, 6680, 1, 6683, 6683, 1, 6742, 6744, 2, 6745,
  6750, 1, 6752, 6754, 2, 6757, 6764, 1, 6771, 6780, 1, 6783, 6783, 1, 6832, 6877, 1, 6880, 6891,
  1, 6912, 6915, 1, 6964, 6973, 1, 6978, 6980, 1, 7019, 7027, 1, 7040, 7041, 1, 7074, 7077, 1,
  7080, 7085, 1, 7142, 7144, 2, 7145, 7145, 1, 7149, 7151, 2, 7152, 7155, 1, 7212, 7219, 1, 7222,
  7223, 1, 7376, 7378, 1, 7380, 7392, 1, 7394, 7400, 1, 7405, 7405, 1, 7412, 7412, 1, 7416, 7417,
  1, 7616, 7679, 1, 8204, 8204, 1, 8400, 8432, 1, 11503, 11505, 1, 11647, 11647, 1, 11744, 11775,
  1, 12330, 12335, 1, 12441, 12442, 1, 42607, 42610, 1, 42612, 42621, 1, 42654, 42655, 1, 42736,
  42737, 1, 43010, 43010, 1, 43014, 43014, 1, 43019, 43019, 1, 43045, 43046, 1, 43052, 43052, 1,
  43204, 43205, 1, 43232, 43249, 1, 43263, 43263, 1, 43302, 43309, 1, 43335, 43345, 1, 43347,
  43347, 1, 43392, 43394, 1, 43443, 43443, 1, 43446, 43449, 1, 43452, 43453, 1, 43456, 43456, 1,
  43493, 43493, 1, 43561, 43566, 1, 43569, 43570, 1, 43573, 43574, 1, 43587, 43587, 1, 43596,
  43596, 1, 43644, 43644, 1, 43696, 43698, 2, 43699, 43700, 1, 43703, 43704, 1, 43710, 43711, 1,
  43713, 43713, 1, 43756, 43757, 1, 43766, 43766, 1, 44005, 44005, 1, 44008, 44008, 1, 44013,
  44013, 1, 64286, 64286, 1, 65024, 65039, 1, 65056, 65071, 1, 65438, 65439, 1, 66045, 66045, 1,
  66272, 66272, 1, 66422, 66426, 1, 68097, 68099, 1, 68101, 68102, 1, 68108, 68111, 1, 68152,
  68154, 1, 68159, 68159, 1, 68325, 68326, 1, 68900, 68903, 1, 68969, 68973, 1, 69291, 69292, 1,
  69370, 69375, 1, 69446, 69456, 1, 69506, 69509, 1, 69633, 69633, 1, 69688, 69702, 1, 69744,
  69744, 1, 69747, 69748, 1, 69759, 69761, 1, 69811, 69814, 1, 69817, 69818, 1, 69826, 69826, 1,
  69888, 69890, 1, 69927, 69931, 1, 69933, 69940, 1, 70003, 70003, 1, 70016, 70017, 1, 70070,
  70078, 1, 70080, 70080, 1, 70089, 70092, 1, 70095, 70095, 1, 70191, 70193, 1, 70196, 70199, 1,
  70206, 70206, 1, 70209, 70209, 1, 70367, 70367, 1, 70371, 70378, 1, 70400, 70401, 1, 70459,
  70460, 1, 70462, 70464, 2, 70477, 70477, 1, 70487, 70487, 1, 70502, 70508, 1, 70512, 70516, 1,
  70584, 70584, 1, 70587, 70592, 1, 70594, 70594, 1, 70597, 70599, 2, 70600, 70601, 1, 70606,
  70608, 1, 70610, 70610, 1, 70625, 70626, 1, 70712, 70719, 1, 70722, 70724, 1, 70726, 70726, 1,
  70750, 70750, 1, 70832, 70832, 1, 70835, 70840, 1, 70842, 70842, 1, 70845, 70847, 2, 70848,
  70850, 2, 70851, 70851, 1, 71087, 71087, 1, 71090, 71093, 1, 71100, 71101, 1, 71103, 71104, 1,
  71132, 71133, 1, 71219, 71226, 1, 71229, 71231, 2, 71232, 71232, 1, 71339, 71341, 2, 71344,
  71351, 1, 71453, 71455, 2, 71458, 71461, 1, 71463, 71467, 1, 71727, 71735, 1, 71737, 71738, 1,
  71984, 71984, 1, 71995, 71998, 1, 72003, 72003, 1, 72148, 72151, 1, 72154, 72155, 1, 72160,
  72160, 1, 72193, 72202, 1, 72243, 72248, 1, 72251, 72254, 1, 72263, 72263, 1, 72273, 72278, 1,
  72281, 72283, 1, 72330, 72342, 1, 72344, 72345, 1, 72544, 72546, 2, 72547, 72548, 1, 72550,
  72550, 1, 72752, 72758, 1, 72760, 72765, 1, 72767, 72767, 1, 72850, 72871, 1, 72874, 72880, 1,
  72882, 72883, 1, 72885, 72886, 1, 73009, 73014, 1, 73018, 73020, 2, 73021, 73023, 2, 73024,
  73029, 1, 73031, 73031, 1, 73104, 73105, 1, 73109, 73111, 2, 73459, 73460, 1, 73472, 73473, 1,
  73526, 73530, 1, 73536, 73538, 1, 73562, 73562, 1, 78912, 78912, 1, 78919, 78933, 1, 90398,
  90409, 1, 90413, 90415, 1, 92912, 92916, 1, 92976, 92982, 1, 94031, 94031, 1, 94095, 94098, 1,
  94180, 94180, 1, 94192, 94193, 1, 113821, 113822, 1, 118528, 118573, 1, 118576, 118598, 1,
  119141, 119145, 1, 119149, 119154, 1, 119163, 119170, 1, 119173, 119179, 1, 119210, 119213, 1,
  119362, 119364, 1, 121344, 121398, 1, 121403, 121452, 1, 121461, 121461, 1, 121476, 121476, 1,
  121499, 121503, 1, 121505, 121519, 1, 122880, 122886, 1, 122888, 122904, 1, 122907, 122913, 1,
  122915, 122916, 1, 122918, 122922, 1, 123023, 123023, 1, 123184, 123190, 1, 123566, 123566, 1,
  123628, 123631, 1, 124140, 124143, 1, 124398, 124399, 1, 124643, 124643, 1, 124646, 124646, 1,
  124654, 124655, 1, 124661, 124661, 1, 125136, 125142, 1, 125252, 125258, 1, 917536, 917631, 1,
  917760, 917999, 1]

def unprintableRuns : List Run := Run.ofFlat [
  0, 31, 1, 127, 160, 1, 173, 173, 1, 888, 889, 1, 896, 899, 1, 907, 909, 2, 930, 930, 1, 1328,
  1328, 1, 1367, 1368, 1, 1419, 1420, 1, 1424, 1424, 1, 1480, 1487, 1, 1515, 1518, 1, 1525, 1541,
  1, 1564, 1564, 1, 1757, 1757, 1, 1806, 1807, 1, 1867, 1868, 1, 1970, 1983, 1, 2043, 2044, 1,
  2094, 2095, 1, 2111, 2111, 1, 2140, 2141, 1, 2143, 2143, 1, 2155, 2159, 1, 2192, 2198, 1, 2274,
  2274, 1, 2436, 2436, 1, 2445, 2446, 1, 2449, 2450, 1, 2473, 2473, 1, 2481, 2483, 2, 2484, 2485,
  1, 2490, 2491, 1, 2501, 2502, 1, 2505, 2506, 1, 2511, 2518, 1, 2520, 2523, 1, 2526, 2526, 1,
  2532, 2533, 1, 2559, 2560, 1, 2564, 2564, 1, 2571, 2574, 1, 2577, 2578, 1, 2601, 2601, 1, 2609,
  2609, 1, 2612, 2612, 1, 2615, 2615, 1, 2618, 2619, 1, 2621, 2621, 1, 2627, 2630, 1, 2633, 2634,
  1, 2638, 2640, 1, 2642, 2648, 1, 2653, 2655, 2, 2656, 2661, 1, 2679, 2688, 1, 2692, 2692, 1,
  2702, 2702, 1, 2706, 2706, 1, 2729, 2729, 1, 2737, 2737, 1, 2740, 2740, 1, 2746, 2747, 1, 2758,
  2758, 1, 2762, 2762, 1, 2766, 2767, 1, 2769, 2783, 1, 2788, 2789, 1, 2802, 2808, 1, 2816, 2816,
  1, 2820, 2820, 1, 2829, 2830, 1, 2833, 2834, 1, 2857, 2857, 1, 2865, 2865, 1, 2868, 2868, 1,
  2874, 2875, 1, 2885, 2886, 1, 2889, 2890, 1, 2894, 2900, 1, 2904, 2907, 1, 2910, 2910, 1, 2916,
  2917, 1, 2936, 2945, 1, 2948, 2948, 1, 2955, 2957, 1, 2961, 2961, 1, 2966, 2968, 1, 2971, 2973,
  2, 2976, 2978, 1, 2981, 2983, 1, 2987, 2989, 1, 3002, 3005, 1, 3011, 3013, 1, 3017, 3017, 1,
  3022, 3023, 1, 3025, 3030, 1, 3032, 3045, 1, 3067, 3071, 1, 3085, 3085, 1, 3089, 3089, 1, 3113,
  3113, 1, 3130, 3131, 1, 3141, 3141, 1, 3145, 3145, 1, 3150, 3156, 1, 3159, 3159, 1, 3163, 3163,
  1, 3166, 3167, 1, 3172, 3173, 1, 3184, 3190, 1, 3213, 3213, 1, 3217, 3217, 1, 3241, 3241, 1,
  3252, 3252, 1, 3258, 3259, 1, 3269, 3269, 1, 3273, 3273, 1, 3278, 3284, 1, 3287, 3291, 1, 3295,
  3295, 1, 3300, 3301, 1, 3312, 3312, 1, 3316, 3327, 1, 3341, 3341, 1, 3345, 3345, 1, 3397, 3397,
  1, 3401, 3401, 1, 3408, 3411, 1, 3428, 3429, 1, 3456, 3456, 1, 3460, 3460, 1, 3479, 3481, 1,
  3506, 3506, 1, 3516, 3518, 2, 3519, 3519, 1, 3527, 3529, 1, 3531, 3534, 1, 3541, 3543, 2, 3552,
  3557, 1, 3568, 3569, 1, 3573, 3584, 1, 3643, 3646, 1, 3676, 3712, 1, 3715, 3717, 2, 3723, 3723,
  1, 3748, 3750, 2, 3774, 3775, 1, 3781, 3783, 2, 3791, 3791, 1, 3802, 3803, 1, 3808, 3839, 1,
  3912, 3912, 1, 3949, 3952, 1, 3992, 3992, 1, 4029, 4029, 1, 4045, 4045, 1, 4059, 4095, 1, 4294,
  4296, 2, 4297, 4300, 1, 4302, 4303, 1, 4681, 4681, 1, 4686, 4687, 1, 4695, 4697, 2, 4702, 4703,
  1, 4745, 4745, 1, 4750, 4751, 1, 4785, 4785, 1, 4790, 4791, 1, 4799, 4801, 2, 4806, 4807, 1,
  4823, 4823, 1, 4881, 4881, 1, 4886, 4887, 1, 4955, 4956, 1, 4989, 4991, 1, 5018, 5023, 1, 5110,
  5111, 1, 5118, 5119, 1, 5760, 5760, 1, 5789, 5791, 1, 5881, 5887, 1, 5910, 5918, 1, 5943, 5951,
  1, 5972, 5983, 1, 5997, 5997, 1, 6001, 6001, 1, 6004, 6015, 1, 6110, 6111, 1, 6122, 6127, 1,
  6138, 6143, 1, 6158, 6158, 1, 6170, 6175, 1, 6265, 6271, 1, 6315, 6319, 1, 6390, 6399, 1, 6431,
  6431, 1, 6444, 6447, 1, 6460, 6463, 1, 6465, 6467, 1, 6510, 6511, 1, 6517, 6527, 1, 6572, 6575,
  1, 6602, 6607, 1, 6619, 6621, 1, 6684, 6685, 1, 6751, 6751, 1, 6781, 6782, 1, 6794, 6799, 1,
  6810, 6815, 1, 6830, 6831, 1, 6878, 6879, 1, 6892, 6911, 1, 6989, 6989, 1, 7156, 7163, 1, 7224,
  7226, 1, 7242, 7244, 1, 7307, 7311, 1, 7355, 7356, 1, 7368, 7375, 1, 7419, 7423, 1, 7958, 7959,
  1, 7966, 7967, 1, 8006, 8007, 1, 8014, 8015, 1, 8024, 8030, 2, 8062, 8063, 1, 8117, 8117, 1,
  8133, 8133, 1, 8148, 8149, 1, 8156, 8156, 1, 8176, 8177, 1, 8181, 8181, 1, 8191, 8207, 1, 8232,
  8239, 1, 8287, 8303, 1, 8306, 8307, 1, 8335, 8335, 1, 8349, 8351, 1, 8386, 8399, 1, 8433, 8447,
  1, 8588, 8591, 1, 9258, 9279, 1, 9291, 9311, 1, 11124, 11125, 1, 11508, 11512, 1, 11558, 11560,
  2, 11561, 11564, 1, 11566, 11567, 1, 11624, 11630, 1, 11633, 11646, 1, 11671, 11679, 1, 11687,
  11687, 1, 11695, 11695, 1, 11703, 11703, 1, 11711, 11711, 1, 11719, 11719, 1, 11727, 11727, 1,
  11735, 11735, 1, 11743, 11743, 1, 11870, 11903, 1, 11930, 11930, 1, 12020, 12031, 1, 12246,
  12271, 1, 12288, 12288, 1, 12352, 12352, 1, 12439, 12440, 1, 12544, 12548, 1, 12592, 12592, 1,
  12687, 12687, 1, 12774, 12782, 1, 12831, 12831, 1, 42125, 42127, 1, 42183, 42191, 1, 42540,
  42559, 1, 42744, 42751, 1, 42973, 42992, 1, 43053, 43055, 1, 43066, 43071, 1, 43128, 43135, 1,
  43206, 43213, 1, 43226, 43231, 1, 43348, 43358, 1, 43389, 43391, 1, 43470, 43470, 1, 43482,
  43485, 1, 43519, 43519, 1, 43575, 43583, 1, 43598, 43599, 1, 43610, 43611, 1, 43715, 43738, 1,
  43767, 43776, 1, 43783, 43784, 1, 43791, 43792, 1, 43799, 43807, 1, 43815, 43815, 1, 43823,
  43823, 1, 43884, 43887, 1, 44014, 44015, 1, 44026, 44031, 1, 55204, 55215, 1, 55239, 55242, 1,
  55292, 55295, 1, 57344, 63743, 1, 64110, 64111, 1, 64218, 64255, 1, 64263, 64274, 1, 64280,
  64284, 1, 64311, 64311, 1, 64317, 64319, 2, 64322, 64322, 1, 64325, 64325, 1, 64976, 65007, 1,
  65050, 65055, 1, 65107, 65107, 1, 65127, 65127, 1, 65132, 65135, 1, 65141, 65141, 1, 65277,
  65280, 1, 65471, 65473, 1, 65480, 65481, 1, 65488, 65489, 1, 65496, 65497, 1, 65501, 65503, 1,
  65511, 65511, 1, 65519, 65531, 1, 65534, 65535, 1, 65548, 65548, 1, 65575, 65575, 1, 65595,
  65595, 1, 65598, 65598, 1, 65614, 65615, 1, 65630, 65663, 1, 65787, 65791, 1, 65795, 65798, 1,
  65844, 65846, 1, 65935, 65935, 1, 65949, 65951, 1, 65953, 65999, 1, 66046, 66175, 1, 66205,
  66207, 1, 66257, 66271, 1, 66300, 66303, 1, 66340, 66348, 1, 66379, 66383, 1, 66427, 66431, 1,
  66462, 66462, 1, 66500, 66503, 1, 66518, 66559, 1, 66718, 66719, 1, 66730, 66735, 1, 66772,
  66775, 1, 66812, 66815, 1, 66856, 66863, 1, 66916, 66926, 1, 66939, 66939, 1, 66955, 66955, 1,
  66963, 66963, 1, 66966, 66966, 1, 66978, 66978, 1, 66994, 66994, 1, 67002, 67002, 1, 67005,
  67007, 1, 67060, 67071, 1, 67383, 67391, 1, 67414, 67423, 1, 67432, 67455, 1, 67462, 67462, 1,
  67505, 67505, 1, 67515, 67583, 1, 67590, 67591, 1, 67593, 67593, 1, 67638, 67638, 1, 67641,
  67643, 1, 67645, 67646, 1, 67670, 67670, 1, 67743, 67750, 1, 67760, 67807, 1, 67827, 67827, 1,
  67830, 67834, 1, 67868, 67870, 1, 67898, 67902, 1, 67930, 67967, 1, 68024, 68027, 1, 68048,
  68049, 1, 68100, 68100, 1, 68103, 68107, 1, 68116, 68116, 1, 68120, 68120, 1, 68150, 68151, 1,
  68155, 68158, 1, 68169, 68175, 1, 68185, 68191, 1, 68256, 68287, 1, 68327, 68330, 1, 68343,
  68351, 1, 68406, 68408, 1, 68438, 68439, 1, 68467, 68471, 1, 68498, 68504, 1, 68509, 68520, 1,
  68528, 68607, 1, 68681, 68735, 1, 68787, 68799, 1, 68851, 68857, 1, 68904, 68911, 1, 68922,
  68927, 1, 68966, 68968, 1, 68998, 69005, 1, 69008, 69215, 1, 69247, 69247, 1, 69290, 69290, 1,
  69294, 69295, 1, 69298, 69313, 1, 69320, 69327, 1, 69337, 69369, 1, 69416, 69423, 1, 69466,
  69487, 1, 69514, 69551, 1, 69580, 69599, 1, 69623, 69631, 1, 69710, 69713, 1, 69750, 69758, 1,
  69821, 69821, 1, 69827, 69839, 1, 69865, 69871, 1, 69882, 69887, 1, 69941, 69941, 1, 69960,
  69967, 1, 70007, 70015, 1, 70112, 70112, 1, 70133, 70143, 1, 70162, 70162, 1, 70210, 70271, 1,
  70279, 70281, 2, 70286, 70286, 1, 70302, 70302, 1, 70314, 70319, 1, 70379, 70383, 1, 70394,
  70399, 1, 70404, 70404, 1, 70413, 70414, 1, 70417, 70418, 1, 70441, 70441, 1, 70449, 70449, 1,
  70452, 70452, 1, 70458, 70458, 1, 70469, 70470, 1, 70473, 70474, 1, 70478, 70479, 1, 70481,
  70486, 1, 70488, 70492, 1, 70500, 70501, 1, 70509, 70511, 1, 70517, 70527, 1, 70538, 70540, 2,
  70541, 70543, 2, 70582, 70582, 1, 70593, 70595, 2, 70596, 70598, 2, 70603, 70603, 1, 70614,
  70614, 1, 70617, 70624, 1, 70627, 70655, 1, 70748, 70748, 1, 70754, 70783, 1, 70856, 70863, 1,
  70874, 71039, 1, 71094, 71095, 1, 71134, 71167, 1, 71237, 71247, 1, 71258, 71263, 1, 71277,
  71295, 1, 71354, 71359, 1, 71370, 71375, 1, 71396, 71423, 1, 71451, 71452, 1, 71468, 71471, 1,
  71495, 71679, 1, 71740, 71839, 1, 71923, 71934, 1, 71943, 71944, 1, 71946, 71947, 1, 71956,
  71956, 1, 71959, 71959, 1, 71990, 71990, 1, 71993, 71994, 1, 72007, 72015, 1, 72026, 72095, 1,
  72104, 72105, 1, 72152, 72153, 1, 72165, 72191, 1, 72264, 72271, 1, 72355, 72367, 1, 72441,
  72447, 1, 72458, 72543, 1, 72552, 72639, 1, 72674, 72687, 1, 72698, 72703, 1, 72713, 72713, 1,
  72759, 72759, 1, 72774, 72783, 1, 72813, 72815, 1, 72848, 72849, 1, 72872, 72872, 1, 72887,
  72959, 1, 72967, 72967, 1, 72970, 72970, 1, 73015, 73017, 1, 73019, 73019, 1, 73022, 73022, 1,
  73032, 73039, 1, 73050, 73055, 1, 73062, 73062, 1, 73065, 73065, 1, 73103, 73103, 1, 73106,
  73106, 1, 73113, 73119, 1, 73130, 73135, 1, 73180, 73183, 1, 73194, 73439, 1, 73465, 73471, 1,
  73489, 73489, 1, 73531, 73533, 1, 73563, 73647, 1, 73649, 73663, 1, 73714, 73726, 1, 74650,
  74751, 1, 74863, 74863, 1, 74869, 74879, 1, 75076, 77711, 1, 77811, 77823, 1, 78896, 78911, 1,
  78934, 78943, 1, 82939, 82943, 1, 83527, 90367, 1, 90426, 92159, 1, 92729, 92735, 1, 92767,
  92767, 1, 92778, 92781, 1, 92863, 92863, 1, 92874, 92879, 1, 92910, 92911, 1, 92918, 92927, 1,
  92998, 93007, 1, 93018, 93018, 1, 93026, 93026, 1, 93048, 93052, 1, 93072, 93503, 1, 93562,
  93759, 1, 93851, 93855, 1, 93881, 93882, 1, 93908, 93951, 1, 94027, 94030, 1, 94088, 94094, 1,
  94112, 94175, 1, 94181, 94191, 1, 94199, 94207, 1, 101590, 101630, 1, 101663, 101759, 1, 101875,
  110575, 1, 110580, 110580, 1, 110588, 110588, 1, 110591, 110591, 1, 110883, 110897, 1, 110899,
  110927, 1, 110931, 110932, 1, 110934, 110947, 1, 110952, 110959, 1, 111356, 113663, 1, 113771,
  113775, 1, 113789, 113791, 1, 113801, 113807, 1, 113818, 113819, 1, 113824, 117759, 1, 118013,
  118015, 1, 118452, 118457, 1, 118481, 118495, 1, 118513, 118527, 1, 118574, 118575, 1, 118599,
  118607, 1, 118724, 118783, 1, 119030, 119039, 1, 119079, 119080, 1, 119155, 119162, 1, 119275,
  119295, 1, 119366, 119487, 1, 119508, 119519, 1, 119540, 119551, 1, 119639, 119647, 1, 119673,
  119807, 1, 119893, 119893, 1, 119965, 119965, 1, 119968, 119969, 1, 119971, 119972, 1, 119975,
  119976, 1, 119981, 119981, 1, 119994, 119996, 2, 120004, 120004, 1, 120070, 120070, 1, 120075,
  120076, 1, 120085, 120085, 1, 120093, 120093, 1, 120122, 120122, 1, 120127, 120127, 1, 120133,
  120135, 2, 120136, 120137, 1, 120145, 120145, 1, 120486, 120487, 1, 120780, 120781, 1, 121484,
  121498, 1, 121504, 121504, 1, 121520, 122623, 1, 122655, 122660, 1, 122667, 122879, 1, 122887,
  122887, 1, 122905, 122906, 1, 122914, 122914, 1, 122917, 122917, 1, 122923, 122927, 1, 122990,
  123022, 1, 123024, 123135, 1, 123181, 123183, 1, 123198, 123199, 1, 123210, 123213, 1, 123216,
  123535, 1, 123567, 123583, 1, 123642, 123646, 1, 123648, 124111, 1, 124154, 124367, 1, 124411,
  124414, 1, 124416, 124607, 1, 124639, 124639, 1, 124662, 124669, 1, 124672, 124895, 1, 124903,
  124903, 1, 124908, 124908, 1, 124911, 124911, 1, 124927, 124927, 1, 125125, 125126, 1, 125143,
  125183, 1, 125260, 125263, 1, 125274, 125277, 1, 125280, 126064, 1, 126133, 126208, 1, 126270,
  126463, 1, 126468, 126468, 1, 126496, 126496, 1, 126499, 126501, 2, 126502, 126504, 2, 126515,
  126515, 1, 126520, 126524, 2, 126525, 126529, 1, 126531, 126534, 1, 126536, 126540, 2, 126544,
  126544, 1, 126547, 126549, 2, 126550, 126560, 2, 126563, 126565, 2, 126566, 126566, 1, 126571,
  126571, 1, 126579, 126579, 1, 126584, 126584, 1, 126589, 126591, 2, 126602, 126602, 1, 126620,
  126624, 1, 126628, 126628, 1, 126634, 126634, 1, 126652, 126703, 1, 126706, 126975, 1, 127020,
  127023, 1, 127124, 127135, 1, 127151, 127152, 1, 127168, 127168, 1, 127184, 127184, 1, 127222,
  127231, 1, 127406, 127461, 1, 127491, 127503, 1, 127548, 127551, 1, 127561, 127567, 1, 127570,
  127583, 1, 127590, 127743, 1, 128729, 128731, 1, 128749, 128751, 1, 128765, 128767, 1, 128986,
  128991, 1, 129004, 129007, 1, 129009, 129023, 1, 129036, 129039, 1, 129096, 129103, 1, 129114,
  129119, 1, 129160, 129167, 1, 129198, 129199, 1, 129212, 129215, 1, 129218, 129231, 1, 129241,
  129279, 1, 129624, 129631, 1, 129646, 129647, 1, 129661, 129663, 1, 129675, 129677, 1, 129735,
  129737, 2, 129738, 129740, 1, 129757, 129758, 1, 129771, 129774, 1, 129785, 129791, 1, 129939,
  129939, 1, 130043, 131071, 1, 173792, 173823, 1, 178206, 178207, 1, 183982, 183983, 1, 191457,
  191471, 1, 192094, 194559, 1, 195102, 196607, 1, 201547, 201551, 1, 210042, 917759, 1, 918000,
  1114111, 1]

def upperShifts : List Shift := Shift.ofFlat [
  97, 122, 1, -32, 181, 181, 1, 743, 224, 246, 1, -32, 248, 254, 1, -32, 255, 255, 1, 121, 257,
  303, 2, -1, 305, 305, 1, -232, 307, 311, 2, -1, 314, 328, 2, -1, 331, 375, 2, -1, 378, 382, 2,
  -1, 383, 383, 1, -300, 384, 384, 1, 195, 387, 389, 2, -1, 392, 392, 1, -1, 396, 396, 1, -1, 402,
  402, 1, -1, 405, 405, 1, 97, 409, 409, 1, -1, 410, 410, 1, 163, 411, 411, 1, 42561, 414, 414, 1,
  130, 417, 421, 2, -1, 424, 424, 1, -1, 429, 429, 1, -1, 432, 432, 1, -1, 436, 438, 2, -1, 441,
  441, 1, -1, 445, 445, 1, -1, 447, 447, 1, 56, 453, 453, 1, -1, 454, 454, 1, -2, 456, 456, 1, -1,
  457, 457, 1, -2, 459, 459, 1, -1, 460, 460, 1, -2, 462, 476, 2, -1, 477, 477, 1, -79, 479, 495,
  2, -1, 498, 498, 1, -1, 499, 499, 1, -2, 501, 501, 1, -1, 505, 543, 2, -1, 547, 563, 2, -1, 572,
  572, 1, -1, 575, 576, 1, 10815, 578, 578, 1, -1, 583, 591, 2, -1, 592, 592, 1, 10783, 593, 593,
  1, 10780, 594, 594, 1, 10782, 595, 595, 1, -210, 596, 596, 1, -206, 598, 599, 1, -205, 601, 601,
  1, -202, 603, 603, 1, -203, 604, 604, 1, 42319, 608, 608, 1, -205, 609, 609, 1, 42315, 611, 611,
  1, -207, 612, 612, 1, 42343, 613, 613, 1, 42280, 614, 614, 1, 42308, 616, 616, 1, -209, 617,
  617, 1, -211, 618, 618, 1, 42308, 619, 619, 1, 10743, 620, 620, 1, 42305, 623, 623, 1, -211,
  625, 625, 1, 10749, 626, 626, 1, -213, 629, 629, 1, -214, 637, 637, 1, 10727, 640, 640, 1, -218,
  642, 642, 1, 42307, 643, 643, 1, -218, 647, 647, 1, 42282, 648, 648, 1, -218, 649, 649, 1, -69,
  650, 651, 1, -217, 652, 652, 1, -71, 658, 658, 1, -219, 669, 669, 1, 42261, 670, 670, 1, 42258,
  837, 837, 1, 84, 881, 883, 2, -1, 887, 887, 1, -1, 891, 893, 1, 130, 940, 940, 1, -38, 941, 943,
  1, -37, 945, 961, 1, -32, 962, 962, 1, -31, 963, 971, 1, -32, 972, 972, 1, -64, 973, 974, 1,
  -63, 976, 976, 1, -62, 977, 977, 1, -57, 981, 981, 1, -47, 982, 982, 1, -54, 983, 983, 1, -8,
  985, 1007, 2, -1, 1008, 1008, 1, -86, 1009, 1009, 1, -80, 1010, 1010, 1, 7, 1011, 1011, 1, -116,
  1013, 1013, 1, -96, 1016, 1016, 1, -1, 1019, 1019, 1, -1, 1072, 1103, 1, -32, 1104, 1119, 1,
  -80, 1121, 1153, 2, -1, 1163, 1215, 2, -1, 1218, 1230, 2, -1, 1231, 1231, 1, -15, 1233, 1327, 2,
  -1, 1377, 1414, 1, -48, 4304, 4346, 1, 3008, 4349, 4351, 1, 3008, 5112, 5117, 1, -8, 7296, 7296,
  1, -6254, 7297, 7297, 1, -6253, 7298, 7298, 1, -6244, 7299, 7300, 1, -6242, 7301, 7301, 1,
  -6243, 7302, 7302, 1, -6236, 7303, 7303, 1, -6181, 7304, 7304, 1, 35266, 7306, 7306, 1, -1,
  7545, 7545, 1, 35332, 7549, 7549, 1, 3814, 7566, 7566, 1, 35384, 7681, 7829, 2, -1, 7835, 7835,
  1, -59, 7841, 7935, 2, -1, 7936, 7943, 1, 8, 7952, 7957, 1, 8, 7968, 7975, 1, 8, 7984, 7991, 1,
  8, 8000, 8005, 1, 8, 8017, 8023, 2, 8, 8032, 8039, 1, 8, 8048, 8049, 1, 74, 8050, 8053, 1, 86,
  8054, 8055, 1, 100, 8056, 8057, 1, 128, 8058, 8059, 1, 112, 8060, 8061, 1, 126, 8112, 8113, 1,
  8, 8126, 8126, 1, -7205, 8144, 8145, 1, 8, 8160, 8161, 1, 8, 8165, 8165, 1, 7, 8526, 8526, 1,
  -28, 8560, 8575, 1, -16, 8580, 8580, 1, -1, 9424, 9449, 1, -26, 11312, 11359, 1, -48, 11361,
  11361, 1, -1, 11365, 11365, 1, -10795, 11366, 11366, 1, -10792, 11368, 11372, 2, -1, 11379,
  11379, 1, -1, 11382, 11382, 1, -1, 11393, 11491, 2, -1, 11500, 11502, 2, -1, 11507, 11507, 1,
  -1, 11520, 11557, 1, -7264, 11559, 11559, 1, -7264, 11565, 11565, 1, -7264, 42561, 42605, 2, -1,
  42625, 42651, 2, -1, 42787, 42799, 2, -1, 42803, 42863, 2, -1, 42874, 42876, 2, -1, 42879,
  42887, 2, -1, 42892, 42892, 1, -1, 42897, 42899, 2, -1, 42900, 42900, 1, 48, 42903, 42921, 2,
  -1, 42933, 42947, 2, -1, 42952, 42954, 2, -1, 42957, 42971, 2, -1, 42998, 42998, 1, -1, 43859,
  43859, 1, -928, 43888, 43967, 1, -38864, 65345, 65370, 1, -32, 66600, 66639, 1, -40, 66776,
  66811, 1, -40, 66967, 66977, 1, -39, 66979, 66993, 1, -39, 66995, 67001, 1, -39, 67003, 67004,
  1, -39, 68800, 68850, 1, -64, 68976, 68997, 1, -32, 71872, 71903, 1, -32, 93792, 93823, 1, -32,
  93883, 93907, 1, -27, 125218, 125251, 1, -34]

def lowerShifts : List Shift := Shift.ofFlat [
  65, 90, 1, 32, 192, 214, 1, 32, 216, 222, 1, 32, 256, 302, 2, 1, 306, 310, 2, 1, 313, 327, 2, 1,
  330, 374, 2, 1, 376, 376, 1, -121, 377, 381, 2, 1, 385, 385, 1, 210, 386, 388, 2, 1, 390, 390,
  1, 206, 391, 391, 1, 1, 393, 394, 1, 205, 395, 395, 1, 1, 398, 398, 1, 79, 399, 399, 1, 202,
  400, 400, 1, 203, 401, 401, 1, 1, 403, 403, 1, 205, 404, 404, 1, 207, 406, 406, 1, 211, 407,
  407, 1, 209, 408, 408, 1, 1, 412, 412, 1, 211, 413, 413, 1, 213, 415, 415, 1, 214, 416, 420, 2,
  1, 422, 422, 1, 218, 423, 423, 1, 1, 425, 425, 1, 218, 428, 428, 1, 1, 430, 430, 1, 218, 431,
  431, 1, 1, 433, 434, 1, 217, 435, 437, 2, 1, 439, 439, 1, 219, 440, 440, 1, 1, 444, 444, 1, 1,
  452, 452, 1, 2, 453, 453, 1, 1, 455, 455, 1, 2, 456, 456, 1, 1, 458, 458, 1, 2, 459, 475, 2, 1,
  478, 494, 2, 1, 497, 497, 1, 2, 498, 500, 2, 1, 502, 502, 1, -97, 503, 503, 1, -56, 504, 542, 2,
  1, 544, 544, 1, -130, 546, 562, 2, 1, 570, 570, 1, 10795, 571, 571, 1, 1, 573, 573, 1, -163,
  574, 574, 1, 10792, 577, 577, 1, 1, 579, 579, 1, -195, 580, 580, 1, 69, 581, 581, 1, 71, 582,
  590, 2, 1, 880, 882, 2, 1, 886, 886, 1, 1, 895, 895, 1, 116, 902, 902, 1, 38, 904, 906, 1, 37,
  908, 908, 1, 64, 910, 911, 1, 63, 913, 929, 1, 32, 931, 939, 1, 32, 975, 975, 1, 8, 984, 1006,
  2, 1, 1012, 1012, 1, -60, 1015, 1015, 1, 1, 1017, 1017, 1, -7, 1018, 1018, 1, 1, 1021, 1023, 1,
  -130, 1024, 1039, 1, 80, 1040, 1071, 1, 32, 1120, 1152, 2, 1, 1162, 1214, 2, 1, 1216, 1216, 1,
  15, 1217, 1229, 2, 1, 1232, 1326, 2, 1, 1329, 1366, 1, 48, 4256, 4293, 1, 7264, 4295, 4295, 1,
  7264, 4301, 4301, 1, 7264, 5024, 5103, 1, 38864, 5104, 5109, 1, 8, 7305, 7305, 1, 1, 7312, 7354,
  1, -3008, 7357, 7359, 1, -3008, 7680, 7828, 2, 1, 7838, 7838, 1, -7615, 7840, 7934, 2, 1, 7944,
  7951, 1, -8, 7960, 7965, 1, -8, 7976, 7983, 1, -8, 7992, 7999, 1, -8, 8008, 8013, 1, -8, 8025,
  8031, 2, -8, 8040, 8047, 1, -8, 8072, 8079, 1, -8, 8088, 8095, 1, -8, 8104, 8111, 1, -8, 8120,
  8121, 1, -8, 8122, 8123, 1, -74, 8124, 8124, 1, -9, 8136, 8139, 1, -86, 8140, 8140, 1, -9, 8152,
  8153, 1, -8, 8154, 8155, 1, -100, 8168, 8169, 1, -8, 8170, 8171, 1, -112, 8172, 8172, 1, -7,
  8184, 8185, 1, -128, 8186, 8187, 1, -126, 8188, 8188, 1, -9, 8486, 8486, 1, -7517, 8490, 8490,
  1, -8383, 8491, 8491, 1, -8262, 8498, 8498, 1, 28, 8544, 8559, 1, 16, 8579, 8579, 1, 1, 9398,
  9423, 1, 26, 11264, 11311, 1, 48, 11360, 11360, 1, 1, 11362, 11362, 1, -10743, 11363, 11363, 1,
  -3814, 11364, 11364, 1, -10727, 11367, 11371, 2, 1, 11373, 11373, 1, -10780, 11374, 11374, 1,
  -10749, 11375, 11375, 1, -10783, 11376, 11376, 1, -10782, 11378, 11378, 1, 1, 11381, 11381, 1,
  1, 11390, 11391, 1, -10815, 11392, 11490, 2, 1, 11499, 11501, 2, 1, 11506, 11506, 1, 1, 42560,
  42604, 2, 1, 42624, 42650, 2, 1, 42786, 42798, 2, 1, 42802, 42862, 2, 1, 42873, 42875, 2, 1,
  42877, 42877, 1, -35332, 42878, 42886, 2, 1, 42891, 42891, 1, 1, 42893, 42893, 1, -42280, 42896,
  42898, 2, 1, 42902, 42920, 2, 1, 42922, 42922, 1, -42308, 42923, 42923, 1, -42319, 42924, 42924,
  1, -42315, 42925, 42925, 1, -42305, 42926, 42926, 1, -42308, 42928, 42928, 1, -42258, 42929,
  42929, 1, -42282, 42930, 42930, 1, -42261, 42931, 42931, 1, 928, 42932, 42946, 2, 1, 42948,
  42948, 1, -48, 42949, 42949, 1, -42307, 42950, 42950, 1, -35384, 42951, 42953, 2, 1, 42955,
  42955, 1, -42343, 42956, 42970, 2, 1, 42972, 42972, 1, -42561, 42997, 42997, 1, 1, 65313, 65338,
  1, 32, 66560, 66599, 1, 40, 66736, 66771, 1, 40, 66928, 66938, 1, 39, 66940, 66954, 1, 39,
  66956, 66962, 1, 39, 66964, 66965, 1, 39, 68736, 68786, 1, 64, 68944, 68965, 1, 32, 71840,
  71871, 1, 32, 93760, 93791, 1, 32, 93856, 93880, 1, 27, 125184, 125217, 1, 34]

def upperExpansions : List (Nat × List Nat) := [
  (223, [83, 83]), (329, [700, 78]), (496, [74, 780]), (912, [921, 776, 769]),
  (944, [933, 776, 769]), (1415, [1333, 1362]), (7830, [72, 817]), (7831, [84, 776]),
  (7832, [87, 778]), (7833, [89, 778]), (7834, [65, 702]), (8016, [933, 787]),
  (8018, [933, 787, 768]), (8020, [933, 787, 769]), (8022, [933, 787, 834]), (8064, [7944, 921]),
  (8065, [7945, 921]), (8066, [7946, 921]), (8067, [7947, 921]), (8068, [7948, 921]),
  (8069, [7949, 921]), (8070, [7950, 921]), (8071, [7951, 921]), (8072, [7944, 921]),
  (8073, [7945, 921]), (8074, [7946, 921]), (8075, [7947, 921]), (8076, [7948, 921]),
  (8077, [7949, 921]), (8078, [7950, 921]), (8079, [7951, 921]), (8080, [7976, 921]),
  (8081, [7977, 921]), (8082, [7978, 921]), (8083, [7979, 921]), (8084, [7980, 921]),
  (8085, [7981, 921]), (8086, [7982, 921]), (8087, [7983, 921]), (8088, [7976, 921]),
  (8089, [7977, 921]), (8090, [7978, 921]), (8091, [7979, 921]), (8092, [7980, 921]),
  (8093, [7981, 921]), (8094, [7982, 921]), (8095, [7983, 921]), (8096, [8040, 921]),
  (8097, [8041, 921]), (8098, [8042, 921]), (8099, [8043, 921]), (8100, [8044, 921]),
  (8101, [8045, 921]), (8102, [8046, 921]), (8103, [8047, 921]), (8104, [8040, 921]),
  (8105, [8041, 921]), (8106, [8042, 921]), (8107, [8043, 921]), (8108, [8044, 921]),
  (8109, [8045, 921]), (8110, [8046, 921]), (8111, [8047, 921]), (8114, [8122, 921]),
  (8115, [913, 921]), (8116, [902, 921]), (8118, [913, 834]), (8119, [913, 834, 921]),
  (8124, [913, 921]), (8130, [8138, 921]), (8131, [919, 921]), (8132, [905, 921]),
  (8134, [919, 834]), (8135, [919, 834, 921]), (8140, [919, 921]), (8146, [921, 776, 768]),
  (8147, [921, 776, 769]), (8150, [921, 834]), (8151, [921, 776, 834]), (8162, [933, 776, 768]),
  (8163, [933, 776, 769]), (8164, [929, 787]), (8166, [933, 834]), (8167, [933, 776, 834]),
  (8178, [8186, 921]), (8179, [937, 921]), (8180, [911, 921]), (8182, [937, 834]),
  (8183, [937, 834, 921]), (8188, [937, 921]), (64256, [70, 70]), (64257, [70, 73]),
  (64258, [70, 76]), (64259, [70, 70, 73]), (64260, [70, 70, 76]), (64261, [83, 84]),
  (64262, [83, 84]), (64275, [1348, 1350]), (64276, [1348, 1333]), (64277, [1348, 1339]),
  (64278, [1358, 1350]), (64279, [1348, 1341])]

def lowerExpansions : List (Nat × List Nat) := [
  (304, [105, 775])]

end ApiModel.Text
