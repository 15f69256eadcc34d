import PlanCompiler.Code.Definition

/-!
# The fixed part of the generated program

What every program has before the definitions of its plan: included headers, status codes,
control macros and helper functions. Programs with checks also have a division that records a
fault, and a macro that leaves the function when a check fails; without checks this macro only
evaluates its condition.
-/

namespace PlanCompiler.Support

/-- Lines without indentation. -/
def plainLines (texts : List String) : List Line :=
  texts.map fun (text : String) => { indent := 0, code := text }

/-- The included headers. -/
def includes : List Line :=
  plainLines
    ["#include <math.h>", "#include <stdint.h>", "#include <stdio.h>", "#include <stdlib.h>",
      "#include <string.h>", "#include <time.h>"]

/-- The status codes. -/
def statusCodes : List Line :=
  plainLines
    ["#define KILN_OK 0", "#define KILN_IO_ERROR 2", "#define KILN_ALLOC_ERROR 3",
      "#define KILN_CHECK_ERROR 4"]

/-- Macros that leave a function through its label `kiln_done`. -/
def controlMacros : List Line :=
  plainLines
    ["#define KILN_FAIL(code) do \x7b kiln_status = (code); goto kiln_done; \x7d while (0)",
      "#define KILN_RESIZE(ptr, count) do \x7b \\",
      "\tvoid *kiln_grown = realloc((ptr), (count) * sizeof(*(ptr))); \\",
      "\tif (!kiln_grown) KILN_FAIL(KILN_ALLOC_ERROR); \\",
      "\t(ptr) = kiln_grown; \\",
      "\x7d while (0)"]

/-- The check of a condition. -/
def checkMacro (checked : Bool) : List Line :=
  plainLines
    [if checked then
      "#define KILN_CHECK(cond) do \x7b if (!(cond)) KILN_FAIL(KILN_CHECK_ERROR); \x7d while (0)"
    else "#define KILN_CHECK(cond) ((void)(cond))"]

/-- A helper function with a comment. -/
def commented (comment : List String) (name : Helper) (result : String) (parameters : List String)
    (body : List Statement) : Definition :=
  .function comment ("static inline " ++ result) (.helper name)
    (parameters.map fun (parameter : String) => parameter) body

/-- A helper function. -/
def helper : Helper → String → List String → List Statement → Definition := commented []

/-- Division that records a fault instead of trapping. -/
def checkedDivision : List Definition :=
  [.global "static int kiln_fault;",
    helper .divide "int64_t" ["int64_t a", "int64_t b"]
      [.block (.control "if (b == 0 || (a == INT64_MIN && b == -1))")
        [.line "kiln_fault = 1;", .line "return 0;"],
        .line "return a / b;"]]

/-- Hashes of values, and how they are combined. -/
def hashing : List Definition :=
  [helper .hashInt "uint64_t" ["int64_t value"]
      [.line "uint64_t x = (uint64_t)value;",
        .line "x ^= x >> 33;",
        .line "x *= UINT64_C(0xff51afd7ed558ccd);",
        .line "x ^= x >> 33;",
        .line "x *= UINT64_C(0xc4ceb9fe1a85ec53);",
        .line "x ^= x >> 33;",
        .line "return x;"],
    helper .hashFloat "uint64_t" ["double value"]
      [.line "uint64_t bits;",
        .control "if (value == 0.0)" "value = 0.0;",
        .line "memcpy(&bits, &value, sizeof(bits));",
        .line ("return " ++ .help .hashInt ["(int64_t)bits"] ++ ";")],
    helper .hashText "uint64_t" ["const char *text"]
      [.line "uint64_t h = 0;",
        .control "while (*text)" "h = (h * 31) ^ (unsigned char)*text++;",
        .line ("return " ++ .help .hashInt ["(int64_t)h"] ++ ";")]]

/-- Match of a text against a pattern, going back to the latest run that may be longer. -/
def matching : Definition :=
  commented ["/* SQL LIKE: '%' matches any run of bytes, '_' exactly one byte. */"]
    .like "int" ["const char *text", "const char *pattern"]
    [.line "const char *star = NULL, *resume = NULL;",
      .block (.control "while (*text)")
        [.branch "if (*pattern == '%')" [.line "star = pattern++;", .line "resume = text;"]
          (.branch "else if (*pattern == '_' || *pattern == *text)"
            [.line "pattern++;", .line "text++;"]
            (.branch "else if (star)" [.line "pattern = star + 1;", .line "text = ++resume;"]
              (.block (.control "else") [.line "return 0;"])))],
      .control "while (*pattern == '%')" "pattern++;",
      .line "return *pattern == '\\0';"]

/-- Functions for the tables of joins. -/
def tables : List Definition :=
  [helper .hashCombine "uint64_t" ["uint64_t seed", "uint64_t hash"]
      [.line "return seed ^ (hash + UINT64_C(0x9e3779b97f4a7c15) + (seed << 6) + (seed >> 2));"],
    helper .tableSize "size_t" ["size_t rows"]
      [.line "size_t size = 16;",
        .control "while (size < rows * 2)" "size *= 2;",
        .line "return size;"]]

/-- Conversions between dates and day numbers. -/
def dates : List Definition :=
  [helper .daysFromCivil "int32_t" ["int y", "int m", "int d"]
      [.line "int era, yoe, doy, doe;",
        .line "y -= m <= 2;",
        .line "era = (y >= 0 ? y : y - 399) / 400;",
        .line "yoe = y - era * 400;",
        .line "doy = (153 * (m > 2 ? m - 3 : m + 9) + 2) / 5 + d - 1;",
        .line "doe = yoe * 365 + yoe / 4 - yoe / 100 + doy;",
        .line "return (int32_t)(era * 146097 + doe - 719468);"],
    helper .printDate "void" ["FILE *out", "int32_t days"]
      [.line "long z = (long)days + 719468;",
        .line "long era = (z >= 0 ? z : z - 146096) / 146097;",
        .line "long doe = z - era * 146097;",
        .line "long yoe = (doe - doe / 1460 + doe / 36524 - doe / 146096) / 365;",
        .line "long doy = doe - (365 * yoe + yoe / 4 - yoe / 100);",
        .line "long mp = (5 * doy + 2) / 153;",
        .line "long d = doy - (153 * mp + 2) / 5 + 1;",
        .line "long m = mp < 10 ? mp + 3 : mp - 9;",
        .line "long y = yoe + era * 400 + (m <= 2);",
        .line "fprintf(out, \"%04ld-%02ld-%02ld\", y, m, d);"]]

/-- Functions that read the fields of a line. -/
def fields : List Definition :=
  [helper .parseInt "int" ["const char *text", "int64_t *out"]
      [.line "char *end;",
        .line "*out = (int64_t)strtoll(text, &end, 10);",
        .line "return end != text && *end == '\\0';"],
    helper .parseFloat "int" ["const char *text", "double *out"]
      [.line "char *end;",
        .line "*out = strtod(text, &end);",
        .line "return end != text && *end == '\\0';"],
    helper .parseDate "int" ["const char *text", "int32_t *out"]
      [.line "int i, y, m, d;",
        .block (.control "for (i = 0; i < 10; i++)")
          [.branch "if (i == 4 || i == 7)" [.control "if (text[i] != '-')" "return 0;"]
            (.block (.control "else if (text[i] < '0' || text[i] > '9')") [.line "return 0;"])],
        .control "if (text[10] != '\\0')" "return 0;",
        .line ("y = (text[0] - '0') * 1000 + (text[1] - '0') * 100 + (text[2] - '0') * 10 + " ++
          "(text[3] - '0');"),
        .line "m = (text[5] - '0') * 10 + (text[6] - '0');",
        .line "d = (text[8] - '0') * 10 + (text[9] - '0');",
        .line ("*out = " ++ .help .daysFromCivil ["y", "m", "d"] ++ ";"),
        .line "return m >= 1 && m <= 12 && d >= 1 && d <= 31;"]]

/-- Functions that read lines of a file and store their texts. -/
def lines : List Definition :=
  [commented
      ["/* Reads one line without its terminator. Returns the length, -1 at end of",
        " * input and -2 when the line buffer cannot grow. */"]
      .readLine "long" ["FILE *in", "char **line", "size_t *cap"]
      [.line "size_t len = 0;",
        .line "int ch;",
        .block (.control "if (*cap == 0)")
          [.line "*line = malloc(256);",
            .control "if (!*line)" "return -2;",
            .line "*cap = 256;"],
        .block (.control "while ((ch = getc(in)) != EOF && ch != '\\n')")
          [.block (.control "if (len + 1 >= *cap)")
              [.line "char *grown = realloc(*line, *cap * 2);",
                .control "if (!grown)" "return -2;",
                .line "*line = grown;",
                .line "*cap *= 2;"],
            .line "(*line)[len++] = (char)ch;"],
        .control "if (ch == EOF && len == 0)" "return -1;",
        .control "if (len > 0 && (*line)[len - 1] == '\\r')" "len--;",
        .line "(*line)[len] = '\\0';",
        .line "return (long)len;"],
    commented
      ["/* Copies text, terminator included, to the end of a growable arena and stores",
        " * its offset. Returns 0 when the arena cannot grow. */"]
      .storeText "int"
      ["char **arena", "size_t *len", "size_t *cap", "const char *text", "size_t *offset"]
      [.line "size_t n = strlen(text) + 1;",
        .block (.control "if (*len + n > *cap)")
          [.line "size_t size = *cap ? *cap : 4096;",
            .line "char *grown;",
            .control "while (size < *len + n)" "size *= 2;",
            .line "grown = realloc(*arena, size);",
            .control "if (!grown)" "return 0;",
            .line "*arena = grown;",
            .line "*cap = size;"],
        .line "memcpy(*arena + *len, text, n);",
        .line "*offset = *len;",
        .line "*len += n;",
        .line "return 1;"],
    commented
      ["/* Splits a line on commas in place. Fields past the end of the line read as",
        " * empty strings. Returns the number of fields present. */"]
      .split "size_t" ["char *line", "char **fields", "size_t max"]
      [.line "size_t n = 0, i;",
        .line "char *p = line;",
        .block (.control "for (;;)")
          [.line "char *comma = strchr(p, ',');",
            .control "if (n < max)" "fields[n] = p;",
            .line "n++;",
            .control "if (!comma)" "break;",
            .line "*comma = '\\0';",
            .line "p = comma + 1;"],
        .control "for (i = n; i < max; i++)" "fields[i] = \"\";",
        .line "return n;"]]

/-- The helper functions of every program. -/
def helpers : List Definition :=
  hashing ++ matching :: (tables ++ dates ++ fields ++ lines)

end PlanCompiler.Support
