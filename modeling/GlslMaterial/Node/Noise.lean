import GlslMaterial.Failure
import GlslMaterial.Text.Lines

/-! Simplex noise in two and three dimensions, as GLSL functions. -/

set_option autoImplicit false

namespace GlslMaterial.Noise

/-- Wraps lattice coordinates, so that products of them stay exact. -/
def wrap2 : String :=
  Text.block
    ["vec2 NoiseMod289v2(in vec2 x) \x7b",
     "    return x - floor(x * (1.0 / 289.0)) * 289.0;",
     "\x7d"]

def wrap3 : String :=
  Text.block
    ["vec3 NoiseMod289v3(in vec3 x) \x7b",
     "    return x - floor(x * (1.0 / 289.0)) * 289.0;",
     "\x7d"]

def wrap4 : String :=
  Text.block
    ["vec4 NoiseMod289v4(in vec4 x) \x7b",
     "    return x - floor(x * (1.0 / 289.0)) * 289.0;",
     "\x7d"]

/-- A permutation of lattice coordinates. -/
def permute3 : String :=
  Text.block
    ["vec3 NoisePermute3(in vec3 x) \x7b",
     "    return NoiseMod289v3(((x * 34.0) + 1.0) * x);",
     "\x7d"]

def permute4 : String :=
  Text.block
    ["vec4 NoisePermute4(in vec4 x) \x7b",
     "    return NoiseMod289v4(((x * 34.0) + 1.0) * x);",
     "\x7d"]

def simplex2 : String :=
  Text.block
    ["float SimplexNoise2D(in vec2 v) \x7b",
     "    const vec4 C = vec4(0.211324865405187, 0.366025403784439, -0.577350269189626, " ++
       "0.024390243902439);",
     "    vec2 i = floor(v + dot(v, C.yy));",
     "    vec2 x0 = v - i + dot(i, C.xx);",
     "    vec2 i1 = (x0.x > x0.y) ? vec2(1.0, 0.0) : vec2(0.0, 1.0);",
     "    vec4 x12 = x0.xyxy + C.xxzz;",
     "    x12.xy -= i1;",
     "    i = NoiseMod289v2(i);",
     "    vec3 p = NoisePermute3(NoisePermute3(i.y + vec3(0.0, i1.y, 1.0)) + i.x + vec3(0.0, " ++
       "i1.x, 1.0));",
     "    vec3 m = max(0.5 - vec3(dot(x0, x0), dot(x12.xy, x12.xy), dot(x12.zw, x12.zw)), 0.0);",
     "    m = m * m;",
     "    m = m * m;",
     "    vec3 x = 2.0 * fract(p * C.www) - 1.0;",
     "    vec3 h = abs(x) - 0.5;",
     "    vec3 ox = floor(x + 0.5);",
     "    vec3 a0 = x - ox;",
     "    m *= 1.79284291400159 - 0.85373472095314 * (a0 * a0 + h * h);",
     "    vec3 g = vec3(a0.x * x0.x + h.x * x0.y, a0.yz * x12.xz + h.yz * x12.yw);",
     "    return 130.0 * dot(m, g);",
     "\x7d"]

def simplex3 : String :=
  Text.block
    ["float SimplexNoise3D(in vec3 v) \x7b",
     "    const vec2 C = vec2(1.0 / 6.0, 1.0 / 3.0);",
     "    const vec4 D = vec4(0.0, 0.5, 1.0, 2.0);",
     "    vec3 i = floor(v + dot(v, C.yyy));",
     "    vec3 x0 = v - i + dot(i, C.xxx);",
     "    vec3 g = step(x0.yzx, x0.xyz);",
     "    vec3 l = 1.0 - g;",
     "    vec3 i1 = min(g.xyz, l.zxy);",
     "    vec3 i2 = max(g.xyz, l.zxy);",
     "    vec3 x1 = x0 - i1 + C.xxx;",
     "    vec3 x2 = x0 - i2 + C.yyy;",
     "    vec3 x3 = x0 - D.yyy;",
     "    i = NoiseMod289v3(i);",
     "    vec4 p = NoisePermute4(NoisePermute4(NoisePermute4(",
     "        i.z + vec4(0.0, i1.z, i2.z, 1.0))",
     "        + i.y + vec4(0.0, i1.y, i2.y, 1.0))",
     "        + i.x + vec4(0.0, i1.x, i2.x, 1.0));",
     "    float n_ = 0.142857142857;",
     "    vec3 ns = n_ * D.wyz - D.xzx;",
     "    vec4 j = p - 49.0 * floor(p * ns.z * ns.z);",
     "    vec4 x_ = floor(j * ns.z);",
     "    vec4 y_ = floor(j - 7.0 * x_);",
     "    vec4 x = x_ * ns.x + ns.yyyy;",
     "    vec4 y = y_ * ns.x + ns.yyyy;",
     "    vec4 h = 1.0 - abs(x) - abs(y);",
     "    vec4 b0 = vec4(x.xy, y.xy);",
     "    vec4 b1 = vec4(x.zw, y.zw);",
     "    vec4 s0 = floor(b0) * 2.0 + 1.0;",
     "    vec4 s1 = floor(b1) * 2.0 + 1.0;",
     "    vec4 sh = -step(h, vec4(0.0));",
     "    vec4 a0 = b0.xzyw + s0.xzyw * sh.xxyy;",
     "    vec4 a1 = b1.xzyw + s1.xzyw * sh.zzww;",
     "    vec3 p0 = vec3(a0.xy, h.x);",
     "    vec3 p1 = vec3(a0.zw, h.y);",
     "    vec3 p2 = vec3(a1.xy, h.z);",
     "    vec3 p3 = vec3(a1.zw, h.w);",
     "    vec4 norm = 1.79284291400159 - 0.85373472095314 * vec4(dot(p0, p0), dot(p1, p1), " ++
       "dot(p2, p2), dot(p3, p3));",
     "    p0 *= norm.x;",
     "    p1 *= norm.y;",
     "    p2 *= norm.z;",
     "    p3 *= norm.w;",
     "    vec4 m = max(0.6 - vec4(dot(x0, x0), dot(x1, x1), dot(x2, x2), dot(x3, x3)), 0.0);",
     "    m = m * m;",
     "    return 42.0 * dot(m * m, vec4(dot(p0, x0), dot(p1, x1), dot(p2, x2), dot(p3, x3)));",
     "\x7d"]

/-- The function of a dimension, with all functions it calls in front; the last one is the noise
itself. -/
def functions : Nat → Except Failure (List (String × String) × String)
  | 2 => .ok ([("NoiseMod289v2", wrap2), ("NoiseMod289v3", wrap3), ("NoisePermute3", permute3),
      ("SimplexNoise2D", simplex2)], "SimplexNoise2D")
  | 3 => .ok ([("NoiseMod289v3", wrap3), ("NoiseMod289v4", wrap4), ("NoisePermute4", permute4),
      ("SimplexNoise3D", simplex3)], "SimplexNoise3D")
  | dimensions => .error (.misuse (.noNoise dimensions))

end GlslMaterial.Noise
