import Stencil.Text.Ranges

/-!
# Letter case

Upper, lower and title case of texts (Unicode 14, full mappings). A capital sigma that ends a word
becomes a final sigma, which is the only mapping that looks at its neighbours.
-/

namespace Stencil.Text

/-- A run of characters that share a case mapping: `count` characters from `first` on, `step` apart,
each moved by `shift`. -/
structure CaseRun where
  first : Nat
  count : Nat
  step : Nat
  shift : Int

/-- The character a run sends `n` to, if `n` belongs to the run. -/
def CaseRun.image? (r : CaseRun) (n : Nat) : Option Nat :=
  if r.first ≤ n && n ≤ r.first + (r.count - 1) * r.step && (n - r.first) % r.step == 0 then
    some (n + r.shift).toNat
  else none

/-- Single-character upper case mappings, in ascending order. -/
def upperRuns : Array CaseRun := #[
  ⟨97, 26, 1, -32⟩, ⟨181, 1, 1, 743⟩, ⟨224, 23, 1, -32⟩, ⟨248, 7, 1, -32⟩, ⟨255, 1, 1, 121⟩,
  ⟨257, 24, 2, -1⟩, ⟨305, 1, 1, -232⟩, ⟨307, 3, 2, -1⟩, ⟨314, 8, 2, -1⟩, ⟨331, 23, 2, -1⟩,
  ⟨378, 3, 2, -1⟩, ⟨383, 1, 1, -300⟩, ⟨384, 1, 1, 195⟩, ⟨387, 2, 2, -1⟩, ⟨392, 1, 1, -1⟩,
  ⟨396, 1, 1, -1⟩, ⟨402, 1, 1, -1⟩, ⟨405, 1, 1, 97⟩, ⟨409, 1, 1, -1⟩, ⟨410, 1, 1, 163⟩,
  ⟨414, 1, 1, 130⟩, ⟨417, 3, 2, -1⟩, ⟨424, 1, 1, -1⟩, ⟨429, 1, 1, -1⟩, ⟨432, 1, 1, -1⟩,
  ⟨436, 2, 2, -1⟩, ⟨441, 1, 1, -1⟩, ⟨445, 1, 1, -1⟩, ⟨447, 1, 1, 56⟩, ⟨453, 1, 1, -1⟩,
  ⟨454, 1, 1, -2⟩, ⟨456, 1, 1, -1⟩, ⟨457, 1, 1, -2⟩, ⟨459, 1, 1, -1⟩, ⟨460, 1, 1, -2⟩,
  ⟨462, 8, 2, -1⟩, ⟨477, 1, 1, -79⟩, ⟨479, 9, 2, -1⟩, ⟨498, 1, 1, -1⟩, ⟨499, 1, 1, -2⟩,
  ⟨501, 1, 1, -1⟩, ⟨505, 20, 2, -1⟩, ⟨547, 9, 2, -1⟩, ⟨572, 1, 1, -1⟩, ⟨575, 2, 1, 10815⟩,
  ⟨578, 1, 1, -1⟩, ⟨583, 5, 2, -1⟩, ⟨592, 1, 1, 10783⟩, ⟨593, 1, 1, 10780⟩, ⟨594, 1, 1, 10782⟩,
  ⟨595, 1, 1, -210⟩, ⟨596, 1, 1, -206⟩, ⟨598, 2, 1, -205⟩, ⟨601, 1, 1, -202⟩, ⟨603, 1, 1, -203⟩,
  ⟨604, 1, 1, 42319⟩, ⟨608, 1, 1, -205⟩, ⟨609, 1, 1, 42315⟩, ⟨611, 1, 1, -207⟩,
  ⟨613, 1, 1, 42280⟩, ⟨614, 1, 1, 42308⟩, ⟨616, 1, 1, -209⟩, ⟨617, 1, 1, -211⟩,
  ⟨618, 1, 1, 42308⟩, ⟨619, 1, 1, 10743⟩, ⟨620, 1, 1, 42305⟩, ⟨623, 1, 1, -211⟩,
  ⟨625, 1, 1, 10749⟩, ⟨626, 1, 1, -213⟩, ⟨629, 1, 1, -214⟩, ⟨637, 1, 1, 10727⟩,
  ⟨640, 1, 1, -218⟩, ⟨642, 1, 1, 42307⟩, ⟨643, 1, 1, -218⟩, ⟨647, 1, 1, 42282⟩,
  ⟨648, 1, 1, -218⟩, ⟨649, 1, 1, -69⟩, ⟨650, 2, 1, -217⟩, ⟨652, 1, 1, -71⟩, ⟨658, 1, 1, -219⟩,
  ⟨669, 1, 1, 42261⟩, ⟨670, 1, 1, 42258⟩, ⟨837, 1, 1, 84⟩, ⟨881, 2, 2, -1⟩, ⟨887, 1, 1, -1⟩,
  ⟨891, 3, 1, 130⟩, ⟨940, 1, 1, -38⟩, ⟨941, 3, 1, -37⟩, ⟨945, 17, 1, -32⟩, ⟨962, 1, 1, -31⟩,
  ⟨963, 9, 1, -32⟩, ⟨972, 1, 1, -64⟩, ⟨973, 2, 1, -63⟩, ⟨976, 1, 1, -62⟩, ⟨977, 1, 1, -57⟩,
  ⟨981, 1, 1, -47⟩, ⟨982, 1, 1, -54⟩, ⟨983, 1, 1, -8⟩, ⟨985, 12, 2, -1⟩, ⟨1008, 1, 1, -86⟩,
  ⟨1009, 1, 1, -80⟩, ⟨1010, 1, 1, 7⟩, ⟨1011, 1, 1, -116⟩, ⟨1013, 1, 1, -96⟩, ⟨1016, 1, 1, -1⟩,
  ⟨1019, 1, 1, -1⟩, ⟨1072, 32, 1, -32⟩, ⟨1104, 16, 1, -80⟩, ⟨1121, 17, 2, -1⟩, ⟨1163, 27, 2, -1⟩,
  ⟨1218, 7, 2, -1⟩, ⟨1231, 1, 1, -15⟩, ⟨1233, 48, 2, -1⟩, ⟨1377, 38, 1, -48⟩,
  ⟨4304, 43, 1, 3008⟩, ⟨4349, 3, 1, 3008⟩, ⟨5112, 6, 1, -8⟩, ⟨7296, 1, 1, -6254⟩,
  ⟨7297, 1, 1, -6253⟩, ⟨7298, 1, 1, -6244⟩, ⟨7299, 2, 1, -6242⟩, ⟨7301, 1, 1, -6243⟩,
  ⟨7302, 1, 1, -6236⟩, ⟨7303, 1, 1, -6181⟩, ⟨7304, 1, 1, 35266⟩, ⟨7545, 1, 1, 35332⟩,
  ⟨7549, 1, 1, 3814⟩, ⟨7566, 1, 1, 35384⟩, ⟨7681, 75, 2, -1⟩, ⟨7835, 1, 1, -59⟩,
  ⟨7841, 48, 2, -1⟩, ⟨7936, 8, 1, 8⟩, ⟨7952, 6, 1, 8⟩, ⟨7968, 8, 1, 8⟩, ⟨7984, 8, 1, 8⟩,
  ⟨8000, 6, 1, 8⟩, ⟨8017, 4, 2, 8⟩, ⟨8032, 8, 1, 8⟩, ⟨8048, 2, 1, 74⟩, ⟨8050, 4, 1, 86⟩,
  ⟨8054, 2, 1, 100⟩, ⟨8056, 2, 1, 128⟩, ⟨8058, 2, 1, 112⟩, ⟨8060, 2, 1, 126⟩, ⟨8112, 2, 1, 8⟩,
  ⟨8126, 1, 1, -7205⟩, ⟨8144, 2, 1, 8⟩, ⟨8160, 2, 1, 8⟩, ⟨8165, 1, 1, 7⟩, ⟨8526, 1, 1, -28⟩,
  ⟨8560, 16, 1, -16⟩, ⟨8580, 1, 1, -1⟩, ⟨9424, 26, 1, -26⟩, ⟨11312, 48, 1, -48⟩,
  ⟨11361, 1, 1, -1⟩, ⟨11365, 1, 1, -10795⟩, ⟨11366, 1, 1, -10792⟩, ⟨11368, 3, 2, -1⟩,
  ⟨11379, 1, 1, -1⟩, ⟨11382, 1, 1, -1⟩, ⟨11393, 50, 2, -1⟩, ⟨11500, 2, 2, -1⟩, ⟨11507, 1, 1, -1⟩,
  ⟨11520, 38, 1, -7264⟩, ⟨11559, 1, 1, -7264⟩, ⟨11565, 1, 1, -7264⟩, ⟨42561, 23, 2, -1⟩,
  ⟨42625, 14, 2, -1⟩, ⟨42787, 7, 2, -1⟩, ⟨42803, 31, 2, -1⟩, ⟨42874, 2, 2, -1⟩,
  ⟨42879, 5, 2, -1⟩, ⟨42892, 1, 1, -1⟩, ⟨42897, 2, 2, -1⟩, ⟨42900, 1, 1, 48⟩, ⟨42903, 10, 2, -1⟩,
  ⟨42933, 8, 2, -1⟩, ⟨42952, 2, 2, -1⟩, ⟨42961, 1, 1, -1⟩, ⟨42967, 2, 2, -1⟩, ⟨42998, 1, 1, -1⟩,
  ⟨43859, 1, 1, -928⟩, ⟨43888, 80, 1, -38864⟩, ⟨65345, 26, 1, -32⟩, ⟨66600, 40, 1, -40⟩,
  ⟨66776, 36, 1, -40⟩, ⟨66967, 11, 1, -39⟩, ⟨66979, 15, 1, -39⟩, ⟨66995, 7, 1, -39⟩,
  ⟨67003, 2, 1, -39⟩, ⟨68800, 51, 1, -64⟩, ⟨71872, 32, 1, -32⟩, ⟨93792, 32, 1, -32⟩,
  ⟨125218, 34, 1, -34⟩]

/-- Single-character lower case mappings, in ascending order. -/
def lowerRuns : Array CaseRun := #[
  ⟨65, 26, 1, 32⟩, ⟨192, 23, 1, 32⟩, ⟨216, 7, 1, 32⟩, ⟨256, 24, 2, 1⟩, ⟨306, 3, 2, 1⟩,
  ⟨313, 8, 2, 1⟩, ⟨330, 23, 2, 1⟩, ⟨376, 1, 1, -121⟩, ⟨377, 3, 2, 1⟩, ⟨385, 1, 1, 210⟩,
  ⟨386, 2, 2, 1⟩, ⟨390, 1, 1, 206⟩, ⟨391, 1, 1, 1⟩, ⟨393, 2, 1, 205⟩, ⟨395, 1, 1, 1⟩,
  ⟨398, 1, 1, 79⟩, ⟨399, 1, 1, 202⟩, ⟨400, 1, 1, 203⟩, ⟨401, 1, 1, 1⟩, ⟨403, 1, 1, 205⟩,
  ⟨404, 1, 1, 207⟩, ⟨406, 1, 1, 211⟩, ⟨407, 1, 1, 209⟩, ⟨408, 1, 1, 1⟩, ⟨412, 1, 1, 211⟩,
  ⟨413, 1, 1, 213⟩, ⟨415, 1, 1, 214⟩, ⟨416, 3, 2, 1⟩, ⟨422, 1, 1, 218⟩, ⟨423, 1, 1, 1⟩,
  ⟨425, 1, 1, 218⟩, ⟨428, 1, 1, 1⟩, ⟨430, 1, 1, 218⟩, ⟨431, 1, 1, 1⟩, ⟨433, 2, 1, 217⟩,
  ⟨435, 2, 2, 1⟩, ⟨439, 1, 1, 219⟩, ⟨440, 1, 1, 1⟩, ⟨444, 1, 1, 1⟩, ⟨452, 1, 1, 2⟩,
  ⟨453, 1, 1, 1⟩, ⟨455, 1, 1, 2⟩, ⟨456, 1, 1, 1⟩, ⟨458, 1, 1, 2⟩, ⟨459, 9, 2, 1⟩, ⟨478, 9, 2, 1⟩,
  ⟨497, 1, 1, 2⟩, ⟨498, 2, 2, 1⟩, ⟨502, 1, 1, -97⟩, ⟨503, 1, 1, -56⟩, ⟨504, 20, 2, 1⟩,
  ⟨544, 1, 1, -130⟩, ⟨546, 9, 2, 1⟩, ⟨570, 1, 1, 10795⟩, ⟨571, 1, 1, 1⟩, ⟨573, 1, 1, -163⟩,
  ⟨574, 1, 1, 10792⟩, ⟨577, 1, 1, 1⟩, ⟨579, 1, 1, -195⟩, ⟨580, 1, 1, 69⟩, ⟨581, 1, 1, 71⟩,
  ⟨582, 5, 2, 1⟩, ⟨880, 2, 2, 1⟩, ⟨886, 1, 1, 1⟩, ⟨895, 1, 1, 116⟩, ⟨902, 1, 1, 38⟩,
  ⟨904, 3, 1, 37⟩, ⟨908, 1, 1, 64⟩, ⟨910, 2, 1, 63⟩, ⟨913, 17, 1, 32⟩, ⟨931, 9, 1, 32⟩,
  ⟨975, 1, 1, 8⟩, ⟨984, 12, 2, 1⟩, ⟨1012, 1, 1, -60⟩, ⟨1015, 1, 1, 1⟩, ⟨1017, 1, 1, -7⟩,
  ⟨1018, 1, 1, 1⟩, ⟨1021, 3, 1, -130⟩, ⟨1024, 16, 1, 80⟩, ⟨1040, 32, 1, 32⟩, ⟨1120, 17, 2, 1⟩,
  ⟨1162, 27, 2, 1⟩, ⟨1216, 1, 1, 15⟩, ⟨1217, 7, 2, 1⟩, ⟨1232, 48, 2, 1⟩, ⟨1329, 38, 1, 48⟩,
  ⟨4256, 38, 1, 7264⟩, ⟨4295, 1, 1, 7264⟩, ⟨4301, 1, 1, 7264⟩, ⟨5024, 80, 1, 38864⟩,
  ⟨5104, 6, 1, 8⟩, ⟨7312, 43, 1, -3008⟩, ⟨7357, 3, 1, -3008⟩, ⟨7680, 75, 2, 1⟩,
  ⟨7838, 1, 1, -7615⟩, ⟨7840, 48, 2, 1⟩, ⟨7944, 8, 1, -8⟩, ⟨7960, 6, 1, -8⟩, ⟨7976, 8, 1, -8⟩,
  ⟨7992, 8, 1, -8⟩, ⟨8008, 6, 1, -8⟩, ⟨8025, 4, 2, -8⟩, ⟨8040, 8, 1, -8⟩, ⟨8072, 8, 1, -8⟩,
  ⟨8088, 8, 1, -8⟩, ⟨8104, 8, 1, -8⟩, ⟨8120, 2, 1, -8⟩, ⟨8122, 2, 1, -74⟩, ⟨8124, 1, 1, -9⟩,
  ⟨8136, 4, 1, -86⟩, ⟨8140, 1, 1, -9⟩, ⟨8152, 2, 1, -8⟩, ⟨8154, 2, 1, -100⟩, ⟨8168, 2, 1, -8⟩,
  ⟨8170, 2, 1, -112⟩, ⟨8172, 1, 1, -7⟩, ⟨8184, 2, 1, -128⟩, ⟨8186, 2, 1, -126⟩, ⟨8188, 1, 1, -9⟩,
  ⟨8486, 1, 1, -7517⟩, ⟨8490, 1, 1, -8383⟩, ⟨8491, 1, 1, -8262⟩, ⟨8498, 1, 1, 28⟩,
  ⟨8544, 16, 1, 16⟩, ⟨8579, 1, 1, 1⟩, ⟨9398, 26, 1, 26⟩, ⟨11264, 48, 1, 48⟩, ⟨11360, 1, 1, 1⟩,
  ⟨11362, 1, 1, -10743⟩, ⟨11363, 1, 1, -3814⟩, ⟨11364, 1, 1, -10727⟩, ⟨11367, 3, 2, 1⟩,
  ⟨11373, 1, 1, -10780⟩, ⟨11374, 1, 1, -10749⟩, ⟨11375, 1, 1, -10783⟩, ⟨11376, 1, 1, -10782⟩,
  ⟨11378, 1, 1, 1⟩, ⟨11381, 1, 1, 1⟩, ⟨11390, 2, 1, -10815⟩, ⟨11392, 50, 2, 1⟩, ⟨11499, 2, 2, 1⟩,
  ⟨11506, 1, 1, 1⟩, ⟨42560, 23, 2, 1⟩, ⟨42624, 14, 2, 1⟩, ⟨42786, 7, 2, 1⟩, ⟨42802, 31, 2, 1⟩,
  ⟨42873, 2, 2, 1⟩, ⟨42877, 1, 1, -35332⟩, ⟨42878, 5, 2, 1⟩, ⟨42891, 1, 1, 1⟩,
  ⟨42893, 1, 1, -42280⟩, ⟨42896, 2, 2, 1⟩, ⟨42902, 10, 2, 1⟩, ⟨42922, 1, 1, -42308⟩,
  ⟨42923, 1, 1, -42319⟩, ⟨42924, 1, 1, -42315⟩, ⟨42925, 1, 1, -42305⟩, ⟨42926, 1, 1, -42308⟩,
  ⟨42928, 1, 1, -42258⟩, ⟨42929, 1, 1, -42282⟩, ⟨42930, 1, 1, -42261⟩, ⟨42931, 1, 1, 928⟩,
  ⟨42932, 8, 2, 1⟩, ⟨42948, 1, 1, -48⟩, ⟨42949, 1, 1, -42307⟩, ⟨42950, 1, 1, -35384⟩,
  ⟨42951, 2, 2, 1⟩, ⟨42960, 1, 1, 1⟩, ⟨42966, 2, 2, 1⟩, ⟨42997, 1, 1, 1⟩, ⟨65313, 26, 1, 32⟩,
  ⟨66560, 40, 1, 40⟩, ⟨66736, 36, 1, 40⟩, ⟨66928, 11, 1, 39⟩, ⟨66940, 15, 1, 39⟩,
  ⟨66956, 7, 1, 39⟩, ⟨66964, 2, 1, 39⟩, ⟨68736, 51, 1, 64⟩, ⟨71840, 32, 1, 32⟩,
  ⟨93760, 32, 1, 32⟩, ⟨125184, 34, 1, 34⟩]

/-- Upper case mappings to several characters. -/
def upperSpecial : Array (Nat × List Nat) := #[
  (223, [83, 83]), (329, [700, 78]), (496, [74, 780]), (912, [921, 776, 769]),
  (944, [933, 776, 769]), (1415, [1333, 1362]), (7830, [72, 817]), (7831, [84, 776]),
  (7832, [87, 778]), (7833, [89, 778]), (7834, [65, 702]), (8016, [933, 787]),
  (8018, [933, 787, 768]), (8020, [933, 787, 769]), (8022, [933, 787, 834]), (8064, [7944, 921]),
  (8065, [7945, 921]), (8066, [7946, 921]), (8067, [7947, 921]), (8068, [7948, 921]),
  (8069, [7949, 921]), (8070, [7950, 921]), (8071, [7951, 921]), (8072, [7944, 921]),
  (8073, [7945, 921]), (8074, [7946, 921]), (8075, [7947, 921]), (8076, [7948, 921]),
  (8077, [7949, 921]), (8078, [7950, 921]), (8079, [7951, 921]), (8080, [7976, 921]),
  (8081, [7977, 921]), (8082, [7978, 921]), (8083, [7979, 921]), (8084, [7980, 921]),
  (8085, [7981, 921]), (8086, [7982, 921]), (8087, [7983, 921]), (8088, [7976, 921]),
  (8089, [7977, 921]), (8090, [7978, 921]), (8091, [7979, 921]), (8092, [7980, 921]),
  (8093, [7981, 921]), (8094, [7982, 921]), (8095, [7983, 921]), (8096, [8040, 921]),
  (8097, [8041, 921]), (8098, [8042, 921]), (8099, [8043, 921]), (8100, [8044, 921]),
  (8101, [8045, 921]), (8102, [8046, 921]), (8103, [8047, 921]), (8104, [8040, 921]),
  (8105, [8041, 921]), (8106, [8042, 921]), (8107, [8043, 921]), (8108, [8044, 921]),
  (8109, [8045, 921]), (8110, [8046, 921]), (8111, [8047, 921]), (8114, [8122, 921]),
  (8115, [913, 921]), (8116, [902, 921]), (8118, [913, 834]), (8119, [913, 834, 921]),
  (8124, [913, 921]), (8130, [8138, 921]), (8131, [919, 921]), (8132, [905, 921]),
  (8134, [919, 834]), (8135, [919, 834, 921]), (8140, [919, 921]), (8146, [921, 776, 768]),
  (8147, [921, 776, 769]), (8150, [921, 834]), (8151, [921, 776, 834]), (8162, [933, 776, 768]),
  (8163, [933, 776, 769]), (8164, [929, 787]), (8166, [933, 834]), (8167, [933, 776, 834]),
  (8178, [8186, 921]), (8179, [937, 921]), (8180, [911, 921]), (8182, [937, 834]),
  (8183, [937, 834, 921]), (8188, [937, 921]), (64256, [70, 70]), (64257, [70, 73]),
  (64258, [70, 76]), (64259, [70, 70, 73]), (64260, [70, 70, 76]), (64261, [83, 84]),
  (64262, [83, 84]), (64275, [1348, 1350]), (64276, [1348, 1333]), (64277, [1348, 1339]),
  (64278, [1358, 1350]), (64279, [1348, 1341])]

/-- Title case mappings that differ from the upper case mapping. -/
def titleSpecial : Array (Nat × List Nat) := #[
  (223, [83, 115]), (452, [453]), (453, [453]), (454, [453]), (455, [456]), (456, [456]),
  (457, [456]), (458, [459]), (459, [459]), (460, [459]), (497, [498]), (498, [498]),
  (499, [498]), (1415, [1333, 1410]), (4304, [4304]), (4305, [4305]), (4306, [4306]),
  (4307, [4307]), (4308, [4308]), (4309, [4309]), (4310, [4310]), (4311, [4311]), (4312, [4312]),
  (4313, [4313]), (4314, [4314]), (4315, [4315]), (4316, [4316]), (4317, [4317]), (4318, [4318]),
  (4319, [4319]), (4320, [4320]), (4321, [4321]), (4322, [4322]), (4323, [4323]), (4324, [4324]),
  (4325, [4325]), (4326, [4326]), (4327, [4327]), (4328, [4328]), (4329, [4329]), (4330, [4330]),
  (4331, [4331]), (4332, [4332]), (4333, [4333]), (4334, [4334]), (4335, [4335]), (4336, [4336]),
  (4337, [4337]), (4338, [4338]), (4339, [4339]), (4340, [4340]), (4341, [4341]), (4342, [4342]),
  (4343, [4343]), (4344, [4344]), (4345, [4345]), (4346, [4346]), (4349, [4349]), (4350, [4350]),
  (4351, [4351]), (8064, [8072]), (8065, [8073]), (8066, [8074]), (8067, [8075]), (8068, [8076]),
  (8069, [8077]), (8070, [8078]), (8071, [8079]), (8072, [8072]), (8073, [8073]), (8074, [8074]),
  (8075, [8075]), (8076, [8076]), (8077, [8077]), (8078, [8078]), (8079, [8079]), (8080, [8088]),
  (8081, [8089]), (8082, [8090]), (8083, [8091]), (8084, [8092]), (8085, [8093]), (8086, [8094]),
  (8087, [8095]), (8088, [8088]), (8089, [8089]), (8090, [8090]), (8091, [8091]), (8092, [8092]),
  (8093, [8093]), (8094, [8094]), (8095, [8095]), (8096, [8104]), (8097, [8105]), (8098, [8106]),
  (8099, [8107]), (8100, [8108]), (8101, [8109]), (8102, [8110]), (8103, [8111]), (8104, [8104]),
  (8105, [8105]), (8106, [8106]), (8107, [8107]), (8108, [8108]), (8109, [8109]), (8110, [8110]),
  (8111, [8111]), (8114, [8122, 837]), (8115, [8124]), (8116, [902, 837]),
  (8119, [913, 834, 837]), (8124, [8124]), (8130, [8138, 837]), (8131, [8140]),
  (8132, [905, 837]), (8135, [919, 834, 837]), (8140, [8140]), (8178, [8186, 837]),
  (8179, [8188]), (8180, [911, 837]), (8183, [937, 834, 837]), (8188, [8188]),
  (64256, [70, 102]), (64257, [70, 105]), (64258, [70, 108]), (64259, [70, 102, 105]),
  (64260, [70, 102, 108]), (64261, [83, 116]), (64262, [83, 116]), (64275, [1348, 1398]),
  (64276, [1348, 1381]), (64277, [1348, 1387]), (64278, [1358, 1398]), (64279, [1348, 1389])]

/-- Ends of the alternating runs of other and upper-case characters. -/
def upperBounds : Array Nat := #[
  65, 91, 192, 215, 216, 223, 256, 257, 258, 259, 260, 261, 262, 263, 264, 265, 266, 267, 268,
  269, 270, 271, 272, 273, 274, 275, 276, 277, 278, 279, 280, 281, 282, 283, 284, 285, 286, 287,
  288, 289, 290, 291, 292, 293, 294, 295, 296, 297, 298, 299, 300, 301, 302, 303, 304, 305, 306,
  307, 308, 309, 310, 311, 313, 314, 315, 316, 317, 318, 319, 320, 321, 322, 323, 324, 325, 326,
  327, 328, 330, 331, 332, 333, 334, 335, 336, 337, 338, 339, 340, 341, 342, 343, 344, 345, 346,
  347, 348, 349, 350, 351, 352, 353, 354, 355, 356, 357, 358, 359, 360, 361, 362, 363, 364, 365,
  366, 367, 368, 369, 370, 371, 372, 373, 374, 375, 376, 378, 379, 380, 381, 382, 385, 387, 388,
  389, 390, 392, 393, 396, 398, 402, 403, 405, 406, 409, 412, 414, 415, 417, 418, 419, 420, 421,
  422, 424, 425, 426, 428, 429, 430, 432, 433, 436, 437, 438, 439, 441, 444, 445, 452, 453, 455,
  456, 458, 459, 461, 462, 463, 464, 465, 466, 467, 468, 469, 470, 471, 472, 473, 474, 475, 476,
  478, 479, 480, 481, 482, 483, 484, 485, 486, 487, 488, 489, 490, 491, 492, 493, 494, 495, 497,
  498, 500, 501, 502, 505, 506, 507, 508, 509, 510, 511, 512, 513, 514, 515, 516, 517, 518, 519,
  520, 521, 522, 523, 524, 525, 526, 527, 528, 529, 530, 531, 532, 533, 534, 535, 536, 537, 538,
  539, 540, 541, 542, 543, 544, 545, 546, 547, 548, 549, 550, 551, 552, 553, 554, 555, 556, 557,
  558, 559, 560, 561, 562, 563, 570, 572, 573, 575, 577, 578, 579, 583, 584, 585, 586, 587, 588,
  589, 590, 591, 880, 881, 882, 883, 886, 887, 895, 896, 902, 903, 904, 907, 908, 909, 910, 912,
  913, 930, 931, 940, 975, 976, 978, 981, 984, 985, 986, 987, 988, 989, 990, 991, 992, 993, 994,
  995, 996, 997, 998, 999, 1000, 1001, 1002, 1003, 1004, 1005, 1006, 1007, 1012, 1013, 1015,
  1016, 1017, 1019, 1021, 1072, 1120, 1121, 1122, 1123, 1124, 1125, 1126, 1127, 1128, 1129, 1130,
  1131, 1132, 1133, 1134, 1135, 1136, 1137, 1138, 1139, 1140, 1141, 1142, 1143, 1144, 1145, 1146,
  1147, 1148, 1149, 1150, 1151, 1152, 1153, 1162, 1163, 1164, 1165, 1166, 1167, 1168, 1169, 1170,
  1171, 1172, 1173, 1174, 1175, 1176, 1177, 1178, 1179, 1180, 1181, 1182, 1183, 1184, 1185, 1186,
  1187, 1188, 1189, 1190, 1191, 1192, 1193, 1194, 1195, 1196, 1197, 1198, 1199, 1200, 1201, 1202,
  1203, 1204, 1205, 1206, 1207, 1208, 1209, 1210, 1211, 1212, 1213, 1214, 1215, 1216, 1218, 1219,
  1220, 1221, 1222, 1223, 1224, 1225, 1226, 1227, 1228, 1229, 1230, 1232, 1233, 1234, 1235, 1236,
  1237, 1238, 1239, 1240, 1241, 1242, 1243, 1244, 1245, 1246, 1247, 1248, 1249, 1250, 1251, 1252,
  1253, 1254, 1255, 1256, 1257, 1258, 1259, 1260, 1261, 1262, 1263, 1264, 1265, 1266, 1267, 1268,
  1269, 1270, 1271, 1272, 1273, 1274, 1275, 1276, 1277, 1278, 1279, 1280, 1281, 1282, 1283, 1284,
  1285, 1286, 1287, 1288, 1289, 1290, 1291, 1292, 1293, 1294, 1295, 1296, 1297, 1298, 1299, 1300,
  1301, 1302, 1303, 1304, 1305, 1306, 1307, 1308, 1309, 1310, 1311, 1312, 1313, 1314, 1315, 1316,
  1317, 1318, 1319, 1320, 1321, 1322, 1323, 1324, 1325, 1326, 1327, 1329, 1367, 4256, 4294, 4295,
  4296, 4301, 4302, 5024, 5110, 7312, 7355, 7357, 7360, 7680, 7681, 7682, 7683, 7684, 7685, 7686,
  7687, 7688, 7689, 7690, 7691, 7692, 7693, 7694, 7695, 7696, 7697, 7698, 7699, 7700, 7701, 7702,
  7703, 7704, 7705, 7706, 7707, 7708, 7709, 7710, 7711, 7712, 7713, 7714, 7715, 7716, 7717, 7718,
  7719, 7720, 7721, 7722, 7723, 7724, 7725, 7726, 7727, 7728, 7729, 7730, 7731, 7732, 7733, 7734,
  7735, 7736, 7737, 7738, 7739, 7740, 7741, 7742, 7743, 7744, 7745, 7746, 7747, 7748, 7749, 7750,
  7751, 7752, 7753, 7754, 7755, 7756, 7757, 7758, 7759, 7760, 7761, 7762, 7763, 7764, 7765, 7766,
  7767, 7768, 7769, 7770, 7771, 7772, 7773, 7774, 7775, 7776, 7777, 7778, 7779, 7780, 7781, 7782,
  7783, 7784, 7785, 7786, 7787, 7788, 7789, 7790, 7791, 7792, 7793, 7794, 7795, 7796, 7797, 7798,
  7799, 7800, 7801, 7802, 7803, 7804, 7805, 7806, 7807, 7808, 7809, 7810, 7811, 7812, 7813, 7814,
  7815, 7816, 7817, 7818, 7819, 7820, 7821, 7822, 7823, 7824, 7825, 7826, 7827, 7828, 7829, 7838,
  7839, 7840, 7841, 7842, 7843, 7844, 7845, 7846, 7847, 7848, 7849, 7850, 7851, 7852, 7853, 7854,
  7855, 7856, 7857, 7858, 7859, 7860, 7861, 7862, 7863, 7864, 7865, 7866, 7867, 7868, 7869, 7870,
  7871, 7872, 7873, 7874, 7875, 7876, 7877, 7878, 7879, 7880, 7881, 7882, 7883, 7884, 7885, 7886,
  7887, 7888, 7889, 7890, 7891, 7892, 7893, 7894, 7895, 7896, 7897, 7898, 7899, 7900, 7901, 7902,
  7903, 7904, 7905, 7906, 7907, 7908, 7909, 7910, 7911, 7912, 7913, 7914, 7915, 7916, 7917, 7918,
  7919, 7920, 7921, 7922, 7923, 7924, 7925, 7926, 7927, 7928, 7929, 7930, 7931, 7932, 7933, 7934,
  7935, 7944, 7952, 7960, 7966, 7976, 7984, 7992, 8000, 8008, 8014, 8025, 8026, 8027, 8028, 8029,
  8030, 8031, 8032, 8040, 8048, 8120, 8124, 8136, 8140, 8152, 8156, 8168, 8173, 8184, 8188, 8450,
  8451, 8455, 8456, 8459, 8462, 8464, 8467, 8469, 8470, 8473, 8478, 8484, 8485, 8486, 8487, 8488,
  8489, 8490, 8494, 8496, 8500, 8510, 8512, 8517, 8518, 8544, 8560, 8579, 8580, 9398, 9424,
  11264, 11312, 11360, 11361, 11362, 11365, 11367, 11368, 11369, 11370, 11371, 11372, 11373,
  11377, 11378, 11379, 11381, 11382, 11390, 11393, 11394, 11395, 11396, 11397, 11398, 11399,
  11400, 11401, 11402, 11403, 11404, 11405, 11406, 11407, 11408, 11409, 11410, 11411, 11412,
  11413, 11414, 11415, 11416, 11417, 11418, 11419, 11420, 11421, 11422, 11423, 11424, 11425,
  11426, 11427, 11428, 11429, 11430, 11431, 11432, 11433, 11434, 11435, 11436, 11437, 11438,
  11439, 11440, 11441, 11442, 11443, 11444, 11445, 11446, 11447, 11448, 11449, 11450, 11451,
  11452, 11453, 11454, 11455, 11456, 11457, 11458, 11459, 11460, 11461, 11462, 11463, 11464,
  11465, 11466, 11467, 11468, 11469, 11470, 11471, 11472, 11473, 11474, 11475, 11476, 11477,
  11478, 11479, 11480, 11481, 11482, 11483, 11484, 11485, 11486, 11487, 11488, 11489, 11490,
  11491, 11499, 11500, 11501, 11502, 11506, 11507, 42560, 42561, 42562, 42563, 42564, 42565,
  42566, 42567, 42568, 42569, 42570, 42571, 42572, 42573, 42574, 42575, 42576, 42577, 42578,
  42579, 42580, 42581, 42582, 42583, 42584, 42585, 42586, 42587, 42588, 42589, 42590, 42591,
  42592, 42593, 42594, 42595, 42596, 42597, 42598, 42599, 42600, 42601, 42602, 42603, 42604,
  42605, 42624, 42625, 42626, 42627, 42628, 42629, 42630, 42631, 42632, 42633, 42634, 42635,
  42636, 42637, 42638, 42639, 42640, 42641, 42642, 42643, 42644, 42645, 42646, 42647, 42648,
  42649, 42650, 42651, 42786, 42787, 42788, 42789, 42790, 42791, 42792, 42793, 42794, 42795,
  42796, 42797, 42798, 42799, 42802, 42803, 42804, 42805, 42806, 42807, 42808, 42809, 42810,
  42811, 42812, 42813, 42814, 42815, 42816, 42817, 42818, 42819, 42820, 42821, 42822, 42823,
  42824, 42825, 42826, 42827, 42828, 42829, 42830, 42831, 42832, 42833, 42834, 42835, 42836,
  42837, 42838, 42839, 42840, 42841, 42842, 42843, 42844, 42845, 42846, 42847, 42848, 42849,
  42850, 42851, 42852, 42853, 42854, 42855, 42856, 42857, 42858, 42859, 42860, 42861, 42862,
  42863, 42873, 42874, 42875, 42876, 42877, 42879, 42880, 42881, 42882, 42883, 42884, 42885,
  42886, 42887, 42891, 42892, 42893, 42894, 42896, 42897, 42898, 42899, 42902, 42903, 42904,
  42905, 42906, 42907, 42908, 42909, 42910, 42911, 42912, 42913, 42914, 42915, 42916, 42917,
  42918, 42919, 42920, 42921, 42922, 42927, 42928, 42933, 42934, 42935, 42936, 42937, 42938,
  42939, 42940, 42941, 42942, 42943, 42944, 42945, 42946, 42947, 42948, 42952, 42953, 42954,
  42960, 42961, 42966, 42967, 42968, 42969, 42997, 42998, 65313, 65339, 66560, 66600, 66736,
  66772, 66928, 66939, 66940, 66955, 66956, 66963, 66964, 66966, 68736, 68787, 71840, 71872,
  93760, 93792, 119808, 119834, 119860, 119886, 119912, 119938, 119964, 119965, 119966, 119968,
  119970, 119971, 119973, 119975, 119977, 119981, 119982, 119990, 120016, 120042, 120068, 120070,
  120071, 120075, 120077, 120085, 120086, 120093, 120120, 120122, 120123, 120127, 120128, 120133,
  120134, 120135, 120138, 120145, 120172, 120198, 120224, 120250, 120276, 120302, 120328, 120354,
  120380, 120406, 120432, 120458, 120488, 120513, 120546, 120571, 120604, 120629, 120662, 120687,
  120720, 120745, 120778, 120779, 125184, 125218, 127280, 127306, 127312, 127338, 127344, 127370]

/-- Ends of the alternating runs of other and lower-case characters. -/
def lowerBounds : Array Nat := #[
  97, 123, 170, 171, 181, 182, 186, 187, 223, 247, 248, 256, 257, 258, 259, 260, 261, 262, 263,
  264, 265, 266, 267, 268, 269, 270, 271, 272, 273, 274, 275, 276, 277, 278, 279, 280, 281, 282,
  283, 284, 285, 286, 287, 288, 289, 290, 291, 292, 293, 294, 295, 296, 297, 298, 299, 300, 301,
  302, 303, 304, 305, 306, 307, 308, 309, 310, 311, 313, 314, 315, 316, 317, 318, 319, 320, 321,
  322, 323, 324, 325, 326, 327, 328, 330, 331, 332, 333, 334, 335, 336, 337, 338, 339, 340, 341,
  342, 343, 344, 345, 346, 347, 348, 349, 350, 351, 352, 353, 354, 355, 356, 357, 358, 359, 360,
  361, 362, 363, 364, 365, 366, 367, 368, 369, 370, 371, 372, 373, 374, 375, 376, 378, 379, 380,
  381, 382, 385, 387, 388, 389, 390, 392, 393, 396, 398, 402, 403, 405, 406, 409, 412, 414, 415,
  417, 418, 419, 420, 421, 422, 424, 425, 426, 428, 429, 430, 432, 433, 436, 437, 438, 439, 441,
  443, 445, 448, 454, 455, 457, 458, 460, 461, 462, 463, 464, 465, 466, 467, 468, 469, 470, 471,
  472, 473, 474, 475, 476, 478, 479, 480, 481, 482, 483, 484, 485, 486, 487, 488, 489, 490, 491,
  492, 493, 494, 495, 497, 499, 500, 501, 502, 505, 506, 507, 508, 509, 510, 511, 512, 513, 514,
  515, 516, 517, 518, 519, 520, 521, 522, 523, 524, 525, 526, 527, 528, 529, 530, 531, 532, 533,
  534, 535, 536, 537, 538, 539, 540, 541, 542, 543, 544, 545, 546, 547, 548, 549, 550, 551, 552,
  553, 554, 555, 556, 557, 558, 559, 560, 561, 562, 563, 570, 572, 573, 575, 577, 578, 579, 583,
  584, 585, 586, 587, 588, 589, 590, 591, 660, 661, 697, 704, 706, 736, 741, 837, 838, 881, 882,
  883, 884, 887, 888, 890, 894, 912, 913, 940, 975, 976, 978, 981, 984, 985, 986, 987, 988, 989,
  990, 991, 992, 993, 994, 995, 996, 997, 998, 999, 1000, 1001, 1002, 1003, 1004, 1005, 1006,
  1007, 1012, 1013, 1014, 1016, 1017, 1019, 1021, 1072, 1120, 1121, 1122, 1123, 1124, 1125, 1126,
  1127, 1128, 1129, 1130, 1131, 1132, 1133, 1134, 1135, 1136, 1137, 1138, 1139, 1140, 1141, 1142,
  1143, 1144, 1145, 1146, 1147, 1148, 1149, 1150, 1151, 1152, 1153, 1154, 1163, 1164, 1165, 1166,
  1167, 1168, 1169, 1170, 1171, 1172, 1173, 1174, 1175, 1176, 1177, 1178, 1179, 1180, 1181, 1182,
  1183, 1184, 1185, 1186, 1187, 1188, 1189, 1190, 1191, 1192, 1193, 1194, 1195, 1196, 1197, 1198,
  1199, 1200, 1201, 1202, 1203, 1204, 1205, 1206, 1207, 1208, 1209, 1210, 1211, 1212, 1213, 1214,
  1215, 1216, 1218, 1219, 1220, 1221, 1222, 1223, 1224, 1225, 1226, 1227, 1228, 1229, 1230, 1232,
  1233, 1234, 1235, 1236, 1237, 1238, 1239, 1240, 1241, 1242, 1243, 1244, 1245, 1246, 1247, 1248,
  1249, 1250, 1251, 1252, 1253, 1254, 1255, 1256, 1257, 1258, 1259, 1260, 1261, 1262, 1263, 1264,
  1265, 1266, 1267, 1268, 1269, 1270, 1271, 1272, 1273, 1274, 1275, 1276, 1277, 1278, 1279, 1280,
  1281, 1282, 1283, 1284, 1285, 1286, 1287, 1288, 1289, 1290, 1291, 1292, 1293, 1294, 1295, 1296,
  1297, 1298, 1299, 1300, 1301, 1302, 1303, 1304, 1305, 1306, 1307, 1308, 1309, 1310, 1311, 1312,
  1313, 1314, 1315, 1316, 1317, 1318, 1319, 1320, 1321, 1322, 1323, 1324, 1325, 1326, 1327, 1328,
  1376, 1417, 4304, 4347, 4349, 4352, 5112, 5118, 7296, 7305, 7424, 7616, 7681, 7682, 7683, 7684,
  7685, 7686, 7687, 7688, 7689, 7690, 7691, 7692, 7693, 7694, 7695, 7696, 7697, 7698, 7699, 7700,
  7701, 7702, 7703, 7704, 7705, 7706, 7707, 7708, 7709, 7710, 7711, 7712, 7713, 7714, 7715, 7716,
  7717, 7718, 7719, 7720, 7721, 7722, 7723, 7724, 7725, 7726, 7727, 7728, 7729, 7730, 7731, 7732,
  7733, 7734, 7735, 7736, 7737, 7738, 7739, 7740, 7741, 7742, 7743, 7744, 7745, 7746, 7747, 7748,
  7749, 7750, 7751, 7752, 7753, 7754, 7755, 7756, 7757, 7758, 7759, 7760, 7761, 7762, 7763, 7764,
  7765, 7766, 7767, 7768, 7769, 7770, 7771, 7772, 7773, 7774, 7775, 7776, 7777, 7778, 7779, 7780,
  7781, 7782, 7783, 7784, 7785, 7786, 7787, 7788, 7789, 7790, 7791, 7792, 7793, 7794, 7795, 7796,
  7797, 7798, 7799, 7800, 7801, 7802, 7803, 7804, 7805, 7806, 7807, 7808, 7809, 7810, 7811, 7812,
  7813, 7814, 7815, 7816, 7817, 7818, 7819, 7820, 7821, 7822, 7823, 7824, 7825, 7826, 7827, 7828,
  7829, 7838, 7839, 7840, 7841, 7842, 7843, 7844, 7845, 7846, 7847, 7848, 7849, 7850, 7851, 7852,
  7853, 7854, 7855, 7856, 7857, 7858, 7859, 7860, 7861, 7862, 7863, 7864, 7865, 7866, 7867, 7868,
  7869, 7870, 7871, 7872, 7873, 7874, 7875, 7876, 7877, 7878, 7879, 7880, 7881, 7882, 7883, 7884,
  7885, 7886, 7887, 7888, 7889, 7890, 7891, 7892, 7893, 7894, 7895, 7896, 7897, 7898, 7899, 7900,
  7901, 7902, 7903, 7904, 7905, 7906, 7907, 7908, 7909, 7910, 7911, 7912, 7913, 7914, 7915, 7916,
  7917, 7918, 7919, 7920, 7921, 7922, 7923, 7924, 7925, 7926, 7927, 7928, 7929, 7930, 7931, 7932,
  7933, 7934, 7935, 7944, 7952, 7958, 7968, 7976, 7984, 7992, 8000, 8006, 8016, 8024, 8032, 8040,
  8048, 8062, 8064, 8072, 8080, 8088, 8096, 8104, 8112, 8117, 8118, 8120, 8126, 8127, 8130, 8133,
  8134, 8136, 8144, 8148, 8150, 8152, 8160, 8168, 8178, 8181, 8182, 8184, 8305, 8306, 8319, 8320,
  8336, 8349, 8458, 8459, 8462, 8464, 8467, 8468, 8495, 8496, 8500, 8501, 8505, 8506, 8508, 8510,
  8518, 8522, 8526, 8527, 8560, 8576, 8580, 8581, 9424, 9450, 11312, 11360, 11361, 11362, 11365,
  11367, 11368, 11369, 11370, 11371, 11372, 11373, 11377, 11378, 11379, 11381, 11382, 11390,
  11393, 11394, 11395, 11396, 11397, 11398, 11399, 11400, 11401, 11402, 11403, 11404, 11405,
  11406, 11407, 11408, 11409, 11410, 11411, 11412, 11413, 11414, 11415, 11416, 11417, 11418,
  11419, 11420, 11421, 11422, 11423, 11424, 11425, 11426, 11427, 11428, 11429, 11430, 11431,
  11432, 11433, 11434, 11435, 11436, 11437, 11438, 11439, 11440, 11441, 11442, 11443, 11444,
  11445, 11446, 11447, 11448, 11449, 11450, 11451, 11452, 11453, 11454, 11455, 11456, 11457,
  11458, 11459, 11460, 11461, 11462, 11463, 11464, 11465, 11466, 11467, 11468, 11469, 11470,
  11471, 11472, 11473, 11474, 11475, 11476, 11477, 11478, 11479, 11480, 11481, 11482, 11483,
  11484, 11485, 11486, 11487, 11488, 11489, 11490, 11491, 11493, 11500, 11501, 11502, 11503,
  11507, 11508, 11520, 11558, 11559, 11560, 11565, 11566, 42561, 42562, 42563, 42564, 42565,
  42566, 42567, 42568, 42569, 42570, 42571, 42572, 42573, 42574, 42575, 42576, 42577, 42578,
  42579, 42580, 42581, 42582, 42583, 42584, 42585, 42586, 42587, 42588, 42589, 42590, 42591,
  42592, 42593, 42594, 42595, 42596, 42597, 42598, 42599, 42600, 42601, 42602, 42603, 42604,
  42605, 42606, 42625, 42626, 42627, 42628, 42629, 42630, 42631, 42632, 42633, 42634, 42635,
  42636, 42637, 42638, 42639, 42640, 42641, 42642, 42643, 42644, 42645, 42646, 42647, 42648,
  42649, 42650, 42651, 42654, 42787, 42788, 42789, 42790, 42791, 42792, 42793, 42794, 42795,
  42796, 42797, 42798, 42799, 42802, 42803, 42804, 42805, 42806, 42807, 42808, 42809, 42810,
  42811, 42812, 42813, 42814, 42815, 42816, 42817, 42818, 42819, 42820, 42821, 42822, 42823,
  42824, 42825, 42826, 42827, 42828, 42829, 42830, 42831, 42832, 42833, 42834, 42835, 42836,
  42837, 42838, 42839, 42840, 42841, 42842, 42843, 42844, 42845, 42846, 42847, 42848, 42849,
  42850, 42851, 42852, 42853, 42854, 42855, 42856, 42857, 42858, 42859, 42860, 42861, 42862,
  42863, 42873, 42874, 42875, 42876, 42877, 42879, 42880, 42881, 42882, 42883, 42884, 42885,
  42886, 42887, 42888, 42892, 42893, 42894, 42895, 42897, 42898, 42899, 42902, 42903, 42904,
  42905, 42906, 42907, 42908, 42909, 42910, 42911, 42912, 42913, 42914, 42915, 42916, 42917,
  42918, 42919, 42920, 42921, 42922, 42927, 42928, 42933, 42934, 42935, 42936, 42937, 42938,
  42939, 42940, 42941, 42942, 42943, 42944, 42945, 42946, 42947, 42948, 42952, 42953, 42954,
  42955, 42961, 42962, 42963, 42964, 42965, 42966, 42967, 42968, 42969, 42970, 42998, 42999,
  43000, 43003, 43824, 43867, 43868, 43881, 43888, 43968, 64256, 64263, 64275, 64280, 65345,
  65371, 66600, 66640, 66776, 66812, 66967, 66978, 66979, 66994, 66995, 67002, 67003, 67005,
  67456, 67457, 67459, 67462, 67463, 67505, 67506, 67515, 68800, 68851, 71872, 71904, 93792,
  93824, 119834, 119860, 119886, 119893, 119894, 119912, 119938, 119964, 119990, 119994, 119995,
  119996, 119997, 120004, 120005, 120016, 120042, 120068, 120094, 120120, 120146, 120172, 120198,
  120224, 120250, 120276, 120302, 120328, 120354, 120380, 120406, 120432, 120458, 120486, 120514,
  120539, 120540, 120546, 120572, 120597, 120598, 120604, 120630, 120655, 120656, 120662, 120688,
  120713, 120714, 120720, 120746, 120771, 120772, 120778, 120779, 120780, 122624, 122634, 122635,
  122655, 125218, 125252]

/-- Ends of the alternating runs of other and title-case characters. -/
def titleBounds : Array Nat := #[
  453, 454, 456, 457, 459, 460, 498, 499, 8072, 8080, 8088, 8096, 8104, 8112, 8124, 8125, 8140,
  8141, 8188, 8189]

/-- Ends of the alternating runs of other characters and characters that case mapping looks through. -/
def caseIgnorableBounds : Array Nat := #[
  39, 40, 46, 47, 58, 59, 94, 95, 96, 97, 168, 169, 173, 174, 175, 176, 180, 181, 183, 185, 688,
  880, 884, 886, 890, 891, 900, 902, 903, 904, 1155, 1162, 1369, 1370, 1375, 1376, 1425, 1470,
  1471, 1472, 1473, 1475, 1476, 1478, 1479, 1480, 1524, 1525, 1536, 1542, 1552, 1563, 1564, 1565,
  1600, 1601, 1611, 1632, 1648, 1649, 1750, 1758, 1759, 1769, 1770, 1774, 1807, 1808, 1809, 1810,
  1840, 1867, 1958, 1969, 2027, 2038, 2042, 2043, 2045, 2046, 2070, 2094, 2137, 2140, 2184, 2185,
  2192, 2194, 2200, 2208, 2249, 2307, 2362, 2363, 2364, 2365, 2369, 2377, 2381, 2382, 2385, 2392,
  2402, 2404, 2417, 2418, 2433, 2434, 2492, 2493, 2497, 2501, 2509, 2510, 2530, 2532, 2558, 2559,
  2561, 2563, 2620, 2621, 2625, 2627, 2631, 2633, 2635, 2638, 2641, 2642, 2672, 2674, 2677, 2678,
  2689, 2691, 2748, 2749, 2753, 2758, 2759, 2761, 2765, 2766, 2786, 2788, 2810, 2816, 2817, 2818,
  2876, 2877, 2879, 2880, 2881, 2885, 2893, 2894, 2901, 2903, 2914, 2916, 2946, 2947, 3008, 3009,
  3021, 3022, 3072, 3073, 3076, 3077, 3132, 3133, 3134, 3137, 3142, 3145, 3146, 3150, 3157, 3159,
  3170, 3172, 3201, 3202, 3260, 3261, 3263, 3264, 3270, 3271, 3276, 3278, 3298, 3300, 3328, 3330,
  3387, 3389, 3393, 3397, 3405, 3406, 3426, 3428, 3457, 3458, 3530, 3531, 3538, 3541, 3542, 3543,
  3633, 3634, 3636, 3643, 3654, 3663, 3761, 3762, 3764, 3773, 3782, 3783, 3784, 3790, 3864, 3866,
  3893, 3894, 3895, 3896, 3897, 3898, 3953, 3967, 3968, 3973, 3974, 3976, 3981, 3992, 3993, 4029,
  4038, 4039, 4141, 4145, 4146, 4152, 4153, 4155, 4157, 4159, 4184, 4186, 4190, 4193, 4209, 4213,
  4226, 4227, 4229, 4231, 4237, 4238, 4253, 4254, 4348, 4349, 4957, 4960, 5906, 5909, 5938, 5940,
  5970, 5972, 6002, 6004, 6068, 6070, 6071, 6078, 6086, 6087, 6089, 6100, 6103, 6104, 6109, 6110,
  6155, 6160, 6211, 6212, 6277, 6279, 6313, 6314, 6432, 6435, 6439, 6441, 6450, 6451, 6457, 6460,
  6679, 6681, 6683, 6684, 6742, 6743, 6744, 6751, 6752, 6753, 6754, 6755, 6757, 6765, 6771, 6781,
  6783, 6784, 6823, 6824, 6832, 6863, 6912, 6916, 6964, 6965, 6966, 6971, 6972, 6973, 6978, 6979,
  7019, 7028, 7040, 7042, 7074, 7078, 7080, 7082, 7083, 7086, 7142, 7143, 7144, 7146, 7149, 7150,
  7151, 7154, 7212, 7220, 7222, 7224, 7288, 7294, 7376, 7379, 7380, 7393, 7394, 7401, 7405, 7406,
  7412, 7413, 7416, 7418, 7468, 7531, 7544, 7545, 7579, 7680, 8125, 8126, 8127, 8130, 8141, 8144,
  8157, 8160, 8173, 8176, 8189, 8191, 8203, 8208, 8216, 8218, 8228, 8229, 8231, 8232, 8234, 8239,
  8288, 8293, 8294, 8304, 8305, 8306, 8319, 8320, 8336, 8349, 8400, 8433, 11388, 11390, 11503,
  11506, 11631, 11632, 11647, 11648, 11744, 11776, 11823, 11824, 12293, 12294, 12330, 12334,
  12337, 12342, 12347, 12348, 12441, 12447, 12540, 12543, 40981, 40982, 42232, 42238, 42508,
  42509, 42607, 42611, 42612, 42622, 42623, 42624, 42652, 42656, 42736, 42738, 42752, 42786,
  42864, 42865, 42888, 42891, 42994, 42997, 43000, 43002, 43010, 43011, 43014, 43015, 43019,
  43020, 43045, 43047, 43052, 43053, 43204, 43206, 43232, 43250, 43263, 43264, 43302, 43310,
  43335, 43346, 43392, 43395, 43443, 43444, 43446, 43450, 43452, 43454, 43471, 43472, 43493,
  43495, 43561, 43567, 43569, 43571, 43573, 43575, 43587, 43588, 43596, 43597, 43632, 43633,
  43644, 43645, 43696, 43697, 43698, 43701, 43703, 43705, 43710, 43712, 43713, 43714, 43741,
  43742, 43756, 43758, 43763, 43765, 43766, 43767, 43867, 43872, 43881, 43884, 44005, 44006,
  44008, 44009, 44013, 44014, 64286, 64287, 64434, 64451, 65024, 65040, 65043, 65044, 65056,
  65072, 65106, 65107, 65109, 65110, 65279, 65280, 65287, 65288, 65294, 65295, 65306, 65307,
  65342, 65343, 65344, 65345, 65392, 65393, 65438, 65440, 65507, 65508, 65529, 65532, 66045,
  66046, 66272, 66273, 66422, 66427, 67456, 67462, 67463, 67505, 67506, 67515, 68097, 68100,
  68101, 68103, 68108, 68112, 68152, 68155, 68159, 68160, 68325, 68327, 68900, 68904, 69291,
  69293, 69446, 69457, 69506, 69510, 69633, 69634, 69688, 69703, 69744, 69745, 69747, 69749,
  69759, 69762, 69811, 69815, 69817, 69819, 69821, 69822, 69826, 69827, 69837, 69838, 69888,
  69891, 69927, 69932, 69933, 69941, 70003, 70004, 70016, 70018, 70070, 70079, 70089, 70093,
  70095, 70096, 70191, 70194, 70196, 70197, 70198, 70200, 70206, 70207, 70367, 70368, 70371,
  70379, 70400, 70402, 70459, 70461, 70464, 70465, 70502, 70509, 70512, 70517, 70712, 70720,
  70722, 70725, 70726, 70727, 70750, 70751, 70835, 70841, 70842, 70843, 70847, 70849, 70850,
  70852, 71090, 71094, 71100, 71102, 71103, 71105, 71132, 71134, 71219, 71227, 71229, 71230,
  71231, 71233, 71339, 71340, 71341, 71342, 71344, 71350, 71351, 71352, 71453, 71456, 71458,
  71462, 71463, 71468, 71727, 71736, 71737, 71739, 71995, 71997, 71998, 71999, 72003, 72004,
  72148, 72152, 72154, 72156, 72160, 72161, 72193, 72203, 72243, 72249, 72251, 72255, 72263,
  72264, 72273, 72279, 72281, 72284, 72330, 72343, 72344, 72346, 72752, 72759, 72760, 72766,
  72767, 72768, 72850, 72872, 72874, 72881, 72882, 72884, 72885, 72887, 73009, 73015, 73018,
  73019, 73020, 73022, 73023, 73030, 73031, 73032, 73104, 73106, 73109, 73110, 73111, 73112,
  73459, 73461, 78896, 78905, 92912, 92917, 92976, 92983, 92992, 92996, 94031, 94032, 94095,
  94112, 94176, 94178, 94179, 94181, 110576, 110580, 110581, 110588, 110589, 110591, 113821,
  113823, 113824, 113828, 118528, 118574, 118576, 118599, 119143, 119146, 119155, 119171, 119173,
  119180, 119210, 119214, 119362, 119365, 121344, 121399, 121403, 121453, 121461, 121462, 121476,
  121477, 121499, 121504, 121505, 121520, 122880, 122887, 122888, 122905, 122907, 122914, 122915,
  122917, 122918, 122923, 123184, 123198, 123566, 123567, 123628, 123632, 125136, 125143, 125252,
  125260, 127995, 128000, 917505, 917506, 917536, 917632, 917760, 918000]

/-- The character that the run containing `n` sends it to. The runs ascend, so it is the last run that
starts at or before `n`, or the one before it where runs of step two interleave. -/
def runImage? (runs : Array CaseRun) (n : Nat) : Option Nat :=
  let rec go (lo hi : Nat) : Nat :=
    if lo < hi then
      let mid := (lo + hi) / 2
      match runs[mid]? with
      | some r => if r.first ≤ n then go (mid + 1) hi else go lo mid
      | none => lo
    else lo
  termination_by hi - lo
  let k := go 0 runs.size
  let at? (i : Nat) : Option Nat := if k < i then none else (runs[k - i]?).bind (·.image? n)
  (at? 1).orElse fun _ => (at? 2).orElse fun _ => at? 3

/-- The mapping to several characters, if there is one. -/
def specialImage? (table : Array (Nat × List Nat)) (n : Nat) : Option (List Char) :=
  (table.find? (·.1 == n)).map fun e => e.2.map Char.ofNat

/-- Whether a character is an upper-case letter. -/
def isUpper (c : Char) : Bool :=
  inRuns upperBounds c.toNat

/-- Whether a character is a lower-case letter. -/
def isLower (c : Char) : Bool :=
  inRuns lowerBounds c.toNat

/-- Whether a character has a case. -/
def isCased (c : Char) : Bool :=
  isUpper c || isLower c || inRuns titleBounds c.toNat

/-- The upper case of one character. -/
def upperChar (c : Char) : List Char :=
  if c.toNat < 0x80 then [c.toUpper]
  else (specialImage? upperSpecial c.toNat).getD
    [((runImage? upperRuns c.toNat).map Char.ofNat).getD c]

/-- The lower case of one character, whatever its neighbours. -/
def lowerChar (c : Char) : List Char :=
  if c.toNat < 0x80 then [c.toLower]
  else if c.toNat == 0x130 then [Char.ofNat 0x69, Char.ofNat 0x307]
  else [((runImage? lowerRuns c.toNat).map Char.ofNat).getD c]

/-- The title case of one character. -/
def titleChar (c : Char) : List Char :=
  if c.toNat < 0x80 then [c.toUpper]
  else (specialImage? titleSpecial c.toNat).getD (upperChar c)

/-- Whether a text, read away from a sigma, first shows a cased character once those that case mapping
looks through are skipped. -/
def showsCased (away : List Char) : Bool :=
  match away.dropWhile fun c => inRuns caseIgnorableBounds c.toNat with
  | c :: _ => isCased c
  | [] => false

/-- The lower case of a character between the text before it, read backwards, and the text after it. -/
def lowerAt (before : List Char) (c : Char) (after : List Char) : List Char :=
  if c.toNat == 0x3a3 then
    if showsCased before && !showsCased after then [Char.ofNat 0x3c2] else [Char.ofNat 0x3c3]
  else lowerChar c

/-- The upper case of a text. -/
def upper (t : List Char) : List Char :=
  t.flatMap upperChar

/-- The lower case of a text. -/
def lower (t : List Char) : List Char :=
  go [] t
where
  go (before : List Char) : List Char → List Char
    | [] => []
    | c :: after => lowerAt before c after ++ go (c :: before) after

/-- A text with its first character in title case and the others in lower case. -/
def capitalize : List Char → List Char
  | [] => []
  | c :: r => titleChar c ++ lower.go [c] r

/-- A text with every letter that follows no cased character in title case and the others in lower
case. -/
def title (t : List Char) : List Char :=
  go [] false t
where
  go (before : List Char) (inWord : Bool) : List Char → List Char
    | [] => []
    | c :: after =>
      (if inWord then lowerAt before c after else titleChar c) ++ go (c :: before) (isCased c) after

/-- A text with upper and lower case exchanged. -/
def swapCase (t : List Char) : List Char :=
  go [] t
where
  go (before : List Char) : List Char → List Char
    | [] => []
    | c :: after =>
      (if isUpper c then lowerAt before c after
        else if isLower c then upperChar c
        else [c]) ++ go (c :: before) after

end Stencil.Text
